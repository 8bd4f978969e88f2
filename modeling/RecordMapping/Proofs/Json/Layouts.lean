import RecordMapping.Proofs.Json.Strings
import RecordMapping.Proofs.Number.Literals
import RecordMapping.Text.Blank

/-!
# Layouts of documents

The compact and the pretty text of a document differ in the blanks between its tokens only. A layout
gives these blanks, and both texts are the document laid out in one of two layouts. A text laid out
starts with the first character of its value, and has no control characters but those of the layout.
-/

namespace RecordMapping

namespace Json

/-- The blanks in front of the parts and of the end of a container on a level, and after a colon. -/
structure Layout where
  gap : Nat → List Char
  colonGap : List Char
  gap_isSpace : ∀ level, ∀ c ∈ gap level, isSpace c
  colonGap_isSpace : ∀ c ∈ colonGap, isSpace c

namespace Layout

def dense : Layout where
  gap _ := []
  colonGap := []
  gap_isSpace := by simp
  colonGap_isSpace := by simp

lemma newLine_isSpace (level : Nat) : ∀ c ∈ newLine level, isSpace c := by
  intro c hc
  obtain rfl | hc := List.mem_cons.mp hc
  · decide
  · obtain rfl := (List.mem_replicate.mp hc).2
    decide

def airy : Layout where
  gap := newLine
  colonGap := [' ']
  gap_isSpace := newLine_isSpace
  colonGap_isSpace := by simp [isSpace]

/-- The parts of a container between two brackets. -/
def enclose (layout : Layout) (level : Nat) (opening closing : Char) (parts : List (List Char)) :
    List Char :=
  if parts.isEmpty then [opening, closing]
  else
    opening :: (layout.gap (level + 1) ++ joinPieces (',' :: layout.gap (level + 1)) parts ++
      layout.gap level ++ [closing])

mutual

def text (layout : Layout) (level : Nat) : Json → List Char
  | .list items => layout.enclose level '[' ']' (itemTexts layout (level + 1) items)
  | .object members => layout.enclose level '{' '}' (memberTexts layout (level + 1) members)
  | .null => compact .null
  | .bool b => compact (.bool b)
  | .number n => compact (.number n)
  | .string s => compact (.string s)
termination_by structural value => value

def itemTexts (layout : Layout) (level : Nat) : List Json → List (List Char)
  | [] => []
  | item :: rest => text layout level item :: itemTexts layout level rest
termination_by structural items => items

def memberTexts (layout : Layout) (level : Nat) : List (String × Json) → List (List Char)
  | [] => []
  | (name, value) :: rest =>
    (quoted name ++ ':' :: (layout.colonGap ++ text layout level value)) ::
      memberTexts layout level rest
termination_by structural members => members

end

lemma enclose_dense (level : Nat) (opening closing : Char) (parts : List (List Char)) :
    dense.enclose level opening closing parts =
      opening :: (joinPieces [','] parts ++ [closing]) := by
  cases parts with
  | nil => rfl
  | cons part rest => simp [enclose, dense]

mutual

lemma text_dense (level : Nat) : ∀ value, dense.text level value = value.compact
  | .list items => by
    rw [text, compact, itemTexts_dense, enclose_dense]
  | .object members => by
    rw [text, compact, memberTexts_dense, enclose_dense]
  | .null => rfl
  | .bool _ => rfl
  | .number _ => rfl
  | .string _ => rfl
termination_by structural value => value

lemma itemTexts_dense (level : Nat) : ∀ items, dense.itemTexts level items = compactItems items
  | [] => rfl
  | item :: rest => by rw [itemTexts, compactItems, text_dense level item, itemTexts_dense]
termination_by structural items => items

lemma memberTexts_dense (level : Nat) :
    ∀ members, dense.memberTexts level members = compactMembers members
  | [] => rfl
  | (name, value) :: rest => by
    rw [memberTexts, compactMembers, text_dense level value, memberTexts_dense]
    rfl
termination_by structural members => members

end

mutual

lemma text_airy (level : Nat) : ∀ value, airy.text level value = value.prettyAt level
  | .list items => by
    rw [text, prettyAt, itemTexts_airy]
    rfl
  | .object members => by
    rw [text, prettyAt, memberTexts_airy]
    rfl
  | .null => rfl
  | .bool _ => rfl
  | .number _ => rfl
  | .string _ => rfl
termination_by structural value => value

lemma itemTexts_airy (level : Nat) : ∀ items, airy.itemTexts level items = prettyItems level items
  | [] => rfl
  | item :: rest => by rw [itemTexts, prettyItems, text_airy level item, itemTexts_airy]
termination_by structural items => items

lemma memberTexts_airy (level : Nat) :
    ∀ members, airy.memberTexts level members = prettyMembers level members
  | [] => rfl
  | (name, value) :: rest => by
    rw [memberTexts, prettyMembers, text_airy level value, memberTexts_airy]
    rfl
termination_by structural members => members

end

end Layout

lemma isBlank_of_isSpace {c : Char} (h : isSpace c) : isBlank c := by
  simp only [isSpace, Bool.or_eq_true, beq_iff_eq] at h
  obtain ((rfl | rfl) | rfl) | rfl := h <;> decide

lemma toNat_of_isDigit {c : Char} (h : c.isDigit) : 48 ≤ c.toNat ∧ c.toNat ≤ 57 := by
  simp only [Char.isDigit, Bool.and_eq_true, decide_eq_true_eq, ge_iff_le,
    UInt32.le_iff_toNat_le] at h
  exact h

lemma toNat_of_isNumeralChar {c : Char} (h : isNumeralChar c) :
    43 ≤ c.toNat ∧ c.toNat ≤ 57 ∨ c = 'e' := by
  simp only [isNumeralChar, Bool.or_eq_true, beq_iff_eq] at h
  obtain (((hdigit | rfl) | rfl) | rfl) | rfl := h
  · have hrange := toNat_of_isDigit hdigit
    omega
  · decide
  · decide
  · decide
  · decide

lemma isBlank_of_isNumeralChar {c : Char} (h : isNumeralChar c) : isBlank c = false := by
  obtain ⟨hlow, hhigh⟩ | rfl := toNat_of_isNumeralChar h
  · simp [isBlank]
    omega
  · decide

/-- A character that a value or a member may start with: neither a blank nor the end of a container.
-/
structure Starts (c : Char) : Prop where
  not_blank : isBlank c = false
  not_bracket : c ≠ ']'
  not_brace : c ≠ '}'

lemma Starts.not_space {c : Char} (h : Starts c) : isSpace c = false := by
  cases hspace : isSpace c with
  | false => rfl
  | true => exact absurd (isBlank_of_isSpace hspace) (by simp [h.not_blank])

lemma Layout.exists_enclose (layout : Layout) (level : Nat) (opening closing : Char)
    (parts : List (List Char)) :
    ∃ rest, layout.enclose level opening closing parts = opening :: rest := by
  unfold enclose
  split
  · exact ⟨_, rfl⟩
  · exact ⟨_, rfl⟩

lemma Layout.text_starts (layout : Layout) (level : Nat) (value : Json)
    (h : ∀ n, value = .number n → n.text ≠ []) :
    ∃ c rest, layout.text level value = c :: rest ∧ Starts c := by
  cases value with
  | null => exact ⟨_, _, rfl, by decide, by decide, by decide⟩
  | bool b =>
    cases b with
    | true => exact ⟨_, _, rfl, by decide, by decide, by decide⟩
    | false => exact ⟨_, _, rfl, by decide, by decide, by decide⟩
  | number n =>
    obtain ⟨c, rest, htext⟩ := List.exists_cons_of_ne_nil (h n rfl)
    have hc : isNumeralChar c := Number.isNumeralChar_of_mem_text (htext ▸ List.mem_cons_self)
    refine ⟨c, rest, htext, isBlank_of_isNumeralChar hc, ?_, ?_⟩
    · rintro rfl
      cases hc
    · rintro rfl
      cases hc
  | string s => exact ⟨_, _, rfl, by decide, by decide, by decide⟩
  | list items =>
    obtain ⟨rest, htext⟩ := layout.exists_enclose level '[' ']' (layout.itemTexts (level + 1) items)
    exact ⟨_, rest, htext, by decide, by decide, by decide⟩
  | object members =>
    obtain ⟨rest, htext⟩ :=
      layout.exists_enclose level '{' '}' (layout.memberTexts (level + 1) members)
    exact ⟨_, rest, htext, by decide, by decide, by decide⟩

lemma mem_joinPieces {separator : List Char} {parts : List (List Char)} {c : Char}
    (h : c ∈ joinPieces separator parts) : c ∈ separator ∨ ∃ part ∈ parts, c ∈ part := by
  induction parts with
  | nil => cases h
  | cons part rest ih =>
    cases rest with
    | nil => exact .inr ⟨part, List.mem_cons_self, h⟩
    | cons next others =>
      simp only [joinPieces, List.mem_append] at h
      obtain (h | h) | h := h
      · exact .inr ⟨part, List.mem_cons_self, h⟩
      · exact .inl h
      · obtain h | ⟨later, hlater, h⟩ := ih h
        · exact .inl h
        · exact .inr ⟨later, List.mem_cons_of_mem _ hlater, h⟩

mutual

lemma compact_not_control : ∀ value : Json, ∀ c ∈ value.compact, 0x20 ≤ c.toNat
  | .null => by simp [compact]
  | .bool true => by simp [compact]
  | .bool false => by simp [compact]
  | .number n => by
    intro c hc
    obtain ⟨hlow, -⟩ | rfl := toNat_of_isNumeralChar (Number.isNumeralChar_of_mem_text hc)
    · omega
    · decide
  | .string s => quoted_not_control s
  | .list items => by
    intro c hc
    simp only [compact, List.mem_cons, List.mem_append, List.not_mem_nil, or_false] at hc
    obtain rfl | hc | rfl := hc
    · decide
    · obtain hc | ⟨part, hpart, hc⟩ := mem_joinPieces hc
      · obtain rfl := List.mem_singleton.mp hc
        decide
      · exact compactItems_not_control items part hpart c hc
    · decide
  | .object members => by
    intro c hc
    simp only [compact, List.mem_cons, List.mem_append, List.not_mem_nil, or_false] at hc
    obtain rfl | hc | rfl := hc
    · decide
    · obtain hc | ⟨part, hpart, hc⟩ := mem_joinPieces hc
      · obtain rfl := List.mem_singleton.mp hc
        decide
      · exact compactMembers_not_control members part hpart c hc
    · decide
termination_by structural value => value

lemma compactItems_not_control :
    ∀ items : List Json, ∀ part ∈ compactItems items, ∀ c ∈ part, 0x20 ≤ c.toNat
  | [] => by simp [compactItems]
  | item :: rest => by
    intro part hpart
    simp only [compactItems, List.mem_cons] at hpart
    obtain rfl | hpart := hpart
    · exact compact_not_control item
    · exact compactItems_not_control rest part hpart
termination_by structural items => items

lemma compactMembers_not_control :
    ∀ members : List (String × Json), ∀ part ∈ compactMembers members, ∀ c ∈ part, 0x20 ≤ c.toNat
  | [] => by simp [compactMembers]
  | (name, value) :: rest => by
    intro part hpart c hc
    simp only [compactMembers, List.mem_cons] at hpart
    obtain rfl | hpart := hpart
    · simp only [List.mem_append, List.mem_cons] at hc
      obtain hc | rfl | hc := hc
      · exact quoted_not_control name c hc
      · decide
      · exact compact_not_control value c hc
    · exact compactMembers_not_control rest part hpart c hc
termination_by structural members => members

end

end Json

end RecordMapping

import RecordMapping.Proofs.Json.Formed
import RecordMapping.Proofs.Json.Layouts

/-!
# Reading a document back

A legible document that is nested less deep than the reader's limit is read from every text that
lays it out, so from its compact and from its pretty text. The proof goes up from the parts of a
document to the whole: what is read back on every level is also read back as a part.
-/

namespace RecordMapping

namespace Json

variable {levels fuel depth : Nat}

lemma skipSpace_append {blanks : List Char} (h : ∀ c ∈ blanks, isSpace c) (text : List Char) :
    skipSpace (blanks ++ text) = skipSpace text := by
  simp only [skipSpace, List.dropWhile_append, List.dropWhile_eq_nil_iff.mpr h, List.isEmpty_nil,
    if_true]

lemma skipSpace_cons {c : Char} (h : isSpace c = false) (text : List Char) :
    skipSpace (c :: text) = c :: text := by
  simp [skipSpace, h]

lemma value?_append {blanks : List Char} (h : ∀ c ∈ blanks, isSpace c) (fuel depth : Nat)
    (text : List Char) : value? fuel depth (blanks ++ text) = value? fuel depth text := by
  cases fuel with
  | zero => rfl
  | succ fuel => simp only [value?, skipSpace_append h]

lemma members?_append {blanks : List Char} (h : ∀ c ∈ blanks, isSpace c) (fuel depth : Nat)
    (done : List Member) (text : List Char) :
    members? fuel depth done (blanks ++ text) = members? fuel depth done text := by
  cases fuel with
  | zero => rfl
  | succ fuel => simp only [members?, skipSpace_append h]

/-- The characters that start a value which is no number. -/
def opening : List Char := ['[', '{', '"', 'n', 't', 'f']

lemma value?_literal {c : Char} (hspace : isSpace c = false) (hopening : c ∉ opening)
    (text : List Char) (fuel depth : Nat) :
    value? (fuel + 1) depth (c :: text) =
      (Literal.read? (c :: text)).map fun (n, after) => (.number n, after) := by
  have hne (d : Char) (hd : d ∈ opening) : c ≠ d := by
    rintro rfl
    exact hopening hd
  rw [value?, skipSpace_cons hspace]
  split
  · rename_i hnil
    cases hnil
  · rename_i hopen
    exact absurd (List.cons.inj hopen).1 (hne '[' (by simp [opening]))
  · rename_i hopen
    exact absurd (List.cons.inj hopen).1 (hne '{' (by simp [opening]))
  · rename_i hopen
    exact absurd (List.cons.inj hopen).1 (hne '"' (by simp [opening]))
  · rename_i hcons
    obtain ⟨rfl, rfl⟩ := List.cons.inj hcons
    rw [if_neg (hne 'n' (by simp [opening])), if_neg (hne 't' (by simp [opening])),
      if_neg (hne 'f' (by simp [opening]))]

lemma value?_numberText {n : Number} (hne : n.text ≠ []) (rest : List Char) (fuel depth : Nat) :
    value? (fuel + 1) depth (n.text ++ rest) =
      (Literal.read? (n.text ++ rest)).map fun (n, after) => (.number n, after) := by
  obtain ⟨c, text, htext⟩ := List.exists_cons_of_ne_nil hne
  have hc : isNumeralChar c := Number.isNumeralChar_of_mem_text (htext ▸ List.mem_cons_self)
  have hspace : isSpace c = false := by
    cases hspace : isSpace c with
    | false => rfl
    | true => exact absurd (isBlank_of_isSpace hspace) (by simp [isBlank_of_isNumeralChar hc])
  have hopening : c ∉ opening := by
    intro hmem
    simp only [opening, List.mem_cons, List.not_mem_nil, or_false] at hmem
    obtain rfl | rfl | rfl | rfl | rfl | rfl := hmem <;> cases hc
  rw [htext, List.cons_append, value?_literal hspace hopening]

lemma value?_number {n : Number} (h : n.Legible) {rest : List Char} (hrest : EndsLiteral rest)
    (fuel depth : Nat) : value? (fuel + 1) depth (n.text ++ rest) = some (.number n, rest) := by
  rw [value?_numberText h.text_ne_nil, Literal.read?_append hrest h]
  rfl

lemma value?_string (s : String) (rest : List Char) (fuel depth : Nat) :
    value? (fuel + 1) depth (quoted s ++ rest) = some (.string s, rest) := by
  obtain ⟨body, hquoted, hread⟩ := stringBody?_quoted s rest
  rw [hquoted, value?, skipSpace_cons (by decide)]
  simp only [hread]
  rfl

lemma value?_null (rest : List Char) (fuel depth : Nat) :
    value? (fuel + 1) depth (compact .null ++ rest) = some (.null, rest) := rfl

lemma value?_bool (b : Bool) (rest : List Char) (fuel depth : Nat) :
    value? (fuel + 1) depth (compact (.bool b) ++ rest) = some (.bool b, rest) := by
  cases b with
  | true => rfl
  | false => rfl

lemma items?_append {blanks : List Char} (h : ∀ c ∈ blanks, isSpace c) (done : List Json)
    (text : List Char) : items? fuel depth done (blanks ++ text) = items? fuel depth done text := by
  cases fuel with
  | zero => rfl
  | succ fuel => simp only [items?, value?_append h]

lemma items?_comma {item : Json} {text more : List Char} (done : List Json)
    (h : value? fuel depth text = some (item, ',' :: more)) :
    items? (fuel + 1) depth done text = items? fuel depth (item :: done) more := by
  have hcomma : skipSpace (',' :: more) = ',' :: more := skipSpace_cons (by decide) more
  simp only [items?, h, hcomma, Option.bind_eq_bind, Option.bind_some]

lemma items?_close {item : Json} {text blanks rest : List Char} (done : List Json)
    (hblanks : ∀ c ∈ blanks, isSpace c)
    (h : value? fuel depth text = some (item, blanks ++ ']' :: rest)) :
    items? (fuel + 1) depth done text = some (.list (done.reverse ++ [item]), rest) := by
  have hclose : skipSpace (blanks ++ ']' :: rest) = ']' :: rest := by
    rw [skipSpace_append hblanks, skipSpace_cons (by decide)]
  simp only [items?, h, hclose, Option.bind_eq_bind, Option.bind_some, List.reverse_cons]

lemma members?_comma {value : Json} {text more : List Char} (name : String) (done : List Member)
    (h : value? fuel depth text = some (value, ',' :: more)) :
    members? (fuel + 1) depth done (quoted name ++ ':' :: text) =
      members? fuel depth (putMember name value done) more := by
  obtain ⟨body, hquoted, hread⟩ := stringBody?_quoted name (':' :: text)
  have hcolon : skipSpace (':' :: text) = ':' :: text := skipSpace_cons (by decide) text
  have hcomma : skipSpace (',' :: more) = ',' :: more := skipSpace_cons (by decide) more
  rw [hquoted, members?, skipSpace_cons (by decide)]
  simp only [hread, hcolon, h, hcomma, Option.bind_eq_bind, Option.bind_some]

lemma members?_close {value : Json} {text blanks rest : List Char} (name : String)
    (done : List Member) (hblanks : ∀ c ∈ blanks, isSpace c)
    (h : value? fuel depth text = some (value, blanks ++ '}' :: rest)) :
    members? (fuel + 1) depth done (quoted name ++ ':' :: text) =
      some (.object (putMember name value done), rest) := by
  obtain ⟨body, hquoted, hread⟩ := stringBody?_quoted name (':' :: text)
  have hcolon : skipSpace (':' :: text) = ':' :: text := skipSpace_cons (by decide) text
  have hclose : skipSpace (blanks ++ '}' :: rest) = '}' :: rest := by
    rw [skipSpace_append hblanks, skipSpace_cons (by decide)]
  rw [hquoted, members?, skipSpace_cons (by decide)]
  simp only [hread, hcolon, h, hclose, Option.bind_eq_bind, Option.bind_some]

lemma joinPieces_starts {part : List Char} (h : ∃ c rest, part = c :: rest ∧ Starts c)
    (separator : List Char) (others : List (List Char)) :
    ∃ c rest, joinPieces separator (part :: others) = c :: rest ∧ Starts c := by
  obtain ⟨c, rest, rfl, hstarts⟩ := h
  cases others with
  | nil => exact ⟨c, rest, rfl, hstarts⟩
  | cons next others => exact ⟨c, _, rfl, hstarts⟩

section Enclose

variable {layout : Layout} {level : Nat} {parts : List (List Char)} {rest : List Char}

lemma skipSpace_enclose {c : Char} {first : List Char} (hstarts : Starts c)
    (hparts : joinPieces (',' :: layout.gap (level + 1)) parts = c :: first) (after : List Char) :
    skipSpace (layout.gap (level + 1) ++
      (joinPieces (',' :: layout.gap (level + 1)) parts ++ after)) = c :: (first ++ after) := by
  rw [skipSpace_append (layout.gap_isSpace _), hparts, List.cons_append,
    skipSpace_cons hstarts.not_space]

lemma enclose_cons (hparts : parts ≠ []) (opening closing : Char) :
    layout.enclose level opening closing parts ++ rest =
      opening :: (layout.gap (level + 1) ++ (joinPieces (',' :: layout.gap (level + 1)) parts ++
        (layout.gap level ++ closing :: rest))) := by
  simp [Layout.enclose, hparts]

lemma value?_enclose_list (hdepth : 0 < depth) (hne : parts ≠ [])
    (hstarts : ∃ c first, joinPieces (',' :: layout.gap (level + 1)) parts = c :: first ∧
      Starts c) :
    value? (fuel + 1) (depth + 1) (layout.enclose level '[' ']' parts ++ rest) =
      items? fuel depth [] (joinPieces (',' :: layout.gap (level + 1)) parts ++
        (layout.gap level ++ ']' :: rest)) := by
  obtain ⟨c, first, hparts, hstarts⟩ := hstarts
  have hlimit : ¬ depth + 1 ≤ 1 := by omega
  rw [enclose_cons hne, value?, skipSpace_cons (by decide)]
  simp only [skipSpace_enclose hstarts hparts, if_neg hlimit, Nat.add_sub_cancel]
  rw [hparts, List.cons_append]
  split
  · rename_i heq
    exact absurd (List.cons.inj heq).1 hstarts.not_bracket
  · rfl

lemma value?_enclose_object (hdepth : 0 < depth) (hne : parts ≠ [])
    (hstarts : ∃ c first, joinPieces (',' :: layout.gap (level + 1)) parts = c :: first ∧
      Starts c) :
    value? (fuel + 1) (depth + 1) (layout.enclose level '{' '}' parts ++ rest) =
      members? fuel depth [] (joinPieces (',' :: layout.gap (level + 1)) parts ++
        (layout.gap level ++ '}' :: rest)) := by
  obtain ⟨c, first, hparts, hstarts⟩ := hstarts
  have hlimit : ¬ depth + 1 ≤ 1 := by omega
  rw [enclose_cons hne, value?, skipSpace_cons (by decide)]
  simp only [skipSpace_enclose hstarts hparts, if_neg hlimit, Nat.add_sub_cancel]
  rw [hparts, List.cons_append]
  split
  · rename_i heq
    exact absurd (List.cons.inj heq).1 hstarts.not_brace
  · rfl

end Enclose

variable {level : Nat} {rest : List Char}

/-- What follows the last part of a container ends a literal. -/
lemma endsLiteral_append {blanks : List Char} (hblanks : ∀ c ∈ blanks, isSpace c)
    (h : EndsLiteral rest) : EndsLiteral (blanks ++ rest) := by
  cases blanks with
  | nil => exact h
  | cons c others =>
    have hc := hblanks c List.mem_cons_self
    simp only [isSpace, Bool.or_eq_true, beq_iff_eq] at hc
    obtain ((rfl | rfl) | rfl) | rfl := hc <;>
      exact endsLiteral_cons (by decide) (by decide) (by decide) (by decide) _

namespace Layout

/-- Whether a value is read from its text on every level, whatever text follows, when containers may
be nested less than so many levels. -/
def ReadsBack (layout : Layout) (depth : Nat) (value : Json) : Prop :=
  ∀ (level fuel : Nat) (rest : List Char), EndsLiteral rest →
    2 * (layout.text level value ++ rest).length < fuel →
    value? fuel depth (layout.text level value ++ rest) = some (value, rest)

variable {layout : Layout} {level depth fuel : Nat} {blanks rest : List Char}

lemma ReadsBack.text_starts {value : Json} (h : layout.ReadsBack depth value) (level : Nat) :
    ∃ c rest, layout.text level value = c :: rest ∧ Starts c := by
  refine layout.text_starts level value fun n hn hnil => ?_
  have hread := h level 1 [] endsLiteral_nil
  subst hn
  rw [text, compact, hnil] at hread
  cases hread (by simp)

lemma readsBack_scalar {value : Json} (hscalar : value.isContainer = false)
    (hnumber : ∀ n, value = .number n → n.Legible) : layout.ReadsBack depth value := by
  intro level fuel rest hrest hfuel
  obtain ⟨fuel, rfl⟩ : ∃ more, fuel = more + 1 := ⟨fuel - 1, by omega⟩
  cases value with
  | null => exact value?_null rest fuel depth
  | bool b => exact value?_bool b rest fuel depth
  | number n => exact value?_number (hnumber n rfl) hrest fuel depth
  | string s => exact value?_string s rest fuel depth
  | list items => cases hscalar
  | object members => cases hscalar

section Parts

variable (layout : Layout) (level : Nat)

lemma joinItems_append (item next : Json) (others : List Json) (rest : List Char) :
    joinPieces (',' :: layout.gap level) (layout.itemTexts level (item :: next :: others)) ++ rest =
      layout.text level item ++ (',' :: (layout.gap level ++
        (joinPieces (',' :: layout.gap level) (layout.itemTexts level (next :: others)) ++
          rest))) := by
  simp [itemTexts, joinPieces]

lemma joinMember_append (name : String) (value : Json) (rest : List Char) :
    joinPieces (',' :: layout.gap level) (layout.memberTexts level [(name, value)]) ++ rest =
      quoted name ++ ':' :: (layout.colonGap ++ (layout.text level value ++ rest)) := by
  simp [memberTexts, joinPieces]

lemma joinMembers_append (name : String) (value : Json) (next : Member) (others : List Member)
    (rest : List Char) :
    joinPieces (',' :: layout.gap level)
        (layout.memberTexts level ((name, value) :: next :: others)) ++ rest =
      quoted name ++ ':' :: (layout.colonGap ++ (layout.text level value ++
        (',' :: (layout.gap level ++ (joinPieces (',' :: layout.gap level)
          (layout.memberTexts level (next :: others)) ++ rest))))) := by
  simp [memberTexts, joinPieces]

end Parts

lemma items?_itemTexts {items : List Json} (hne : items ≠ [])
    (h : ∀ item ∈ items, layout.ReadsBack depth item) (hblanks : ∀ c ∈ blanks, isSpace c)
    (done : List Json)
    (hfuel : 2 * (joinPieces (',' :: layout.gap level) (layout.itemTexts level items) ++
      (blanks ++ ']' :: rest)).length + 1 < fuel) :
    items? fuel depth done
      (joinPieces (',' :: layout.gap level) (layout.itemTexts level items) ++
        (blanks ++ ']' :: rest)) = some (.list (done.reverse ++ items), rest) := by
  induction items generalizing done fuel with
  | nil => exact absurd rfl hne
  | cons item others ih =>
    obtain ⟨fuel, rfl⟩ : ∃ more, fuel = more + 1 := ⟨fuel - 1, by omega⟩
    have hitem := h item List.mem_cons_self level fuel
    cases others with
    | nil =>
      have hclose : EndsLiteral (']' :: rest) :=
        endsLiteral_cons (by decide) (by decide) (by decide) (by decide) rest
      exact items?_close done hblanks
        (hitem _ (endsLiteral_append hblanks hclose) (Nat.lt_of_succ_lt_succ hfuel))
    | cons next others =>
      rw [joinItems_append] at hfuel ⊢
      generalize joinPieces (',' :: layout.gap level)
        (layout.itemTexts level (next :: others)) ++ (blanks ++ ']' :: rest) = tail at ih hfuel ⊢
      have hcomma : EndsLiteral (',' :: (layout.gap level ++ tail)) :=
        endsLiteral_cons (by decide) (by decide) (by decide) (by decide) _
      rw [items?_comma done (hitem _ hcomma (by omega)), items?_append (layout.gap_isSpace level),
        ih (by simp) (fun item hmem => h item (List.mem_cons_of_mem _ hmem))]
      · simp
      · simp only [List.length_append, List.length_cons] at hfuel
        omega

lemma members?_memberTexts {members : List Member} (hne : members ≠ [])
    (h : ∀ member ∈ members, layout.ReadsBack depth member.2)
    (hblanks : ∀ c ∈ blanks, isSpace c) (done : List Member)
    (hdistinct : ((done ++ members).map Prod.fst).Nodup)
    (hfuel : 2 * (joinPieces (',' :: layout.gap level) (layout.memberTexts level members) ++
      (blanks ++ '}' :: rest)).length + 1 < fuel) :
    members? fuel depth done
      (joinPieces (',' :: layout.gap level) (layout.memberTexts level members) ++
        (blanks ++ '}' :: rest)) = some (.object (done ++ members), rest) := by
  induction members generalizing done fuel with
  | nil => exact absurd rfl hne
  | cons member others ih =>
    obtain ⟨fuel, rfl⟩ : ∃ more, fuel = more + 1 := ⟨fuel - 1, by omega⟩
    obtain ⟨name, value⟩ := member
    have hvalue := h (name, value) List.mem_cons_self level fuel
    have hput := putMember_of_nodup hdistinct
    have hcolon (after : List Char) (hends : EndsLiteral after)
        (hmore : 2 * (layout.text level value ++ after).length < fuel) :
        value? fuel depth (layout.colonGap ++ (layout.text level value ++ after)) =
          some (value, after) := by
      rw [value?_append layout.colonGap_isSpace, hvalue after hends hmore]
    cases others with
    | nil =>
      have hclose : EndsLiteral ('}' :: rest) :=
        endsLiteral_cons (by decide) (by decide) (by decide) (by decide) rest
      rw [joinMember_append] at hfuel ⊢
      rw [members?_close name done hblanks (hcolon _ (endsLiteral_append hblanks hclose) ?_), hput]
      simp only [List.length_append, List.length_cons] at hfuel ⊢
      omega
    | cons next others =>
      rw [joinMembers_append] at hfuel ⊢
      generalize joinPieces (',' :: layout.gap level)
        (layout.memberTexts level (next :: others)) ++ (blanks ++ '}' :: rest) = tail at ih hfuel ⊢
      have hcomma : EndsLiteral (',' :: (layout.gap level ++ tail)) :=
        endsLiteral_cons (by decide) (by decide) (by decide) (by decide) _
      simp only [List.length_append, List.length_cons] at hfuel
      rw [members?_comma name done (hcolon _ hcomma ?_), members?_append (layout.gap_isSpace level),
        hput, ih (by simp) (fun member hmem => h member (List.mem_cons_of_mem _ hmem))]
      · simp
      · simpa using hdistinct
      · omega
      · simp only [List.length_append, List.length_cons]
        omega

lemma value?_list_nil (hdepth : 0 < depth) :
    value? (fuel + 1) (depth + 1) (layout.text level (.list []) ++ rest) =
      some (.list [], rest) := by
  have hlimit : ¬ depth + 1 ≤ 1 := by omega
  simp [text, itemTexts, enclose, value?, skipSpace, isSpace, hlimit]

lemma value?_object_nil (hdepth : 0 < depth) :
    value? (fuel + 1) (depth + 1) (layout.text level (.object []) ++ rest) =
      some (.object [], rest) := by
  have hlimit : ¬ depth + 1 ≤ 1 := by omega
  simp [text, memberTexts, enclose, value?, skipSpace, isSpace, hlimit]

lemma readsBack_list {items : List Json} (hdepth : 0 < depth)
    (h : ∀ item ∈ items, layout.ReadsBack depth item) :
    layout.ReadsBack (depth + 1) (.list items) := by
  intro level fuel rest hrest hfuel
  obtain ⟨fuel, rfl⟩ : ∃ more, fuel = more + 1 := ⟨fuel - 1, by omega⟩
  cases items with
  | nil => exact value?_list_nil hdepth
  | cons item others =>
    have hstarts := joinPieces_starts ((h item List.mem_cons_self).text_starts (level + 1))
      (',' :: layout.gap (level + 1)) (layout.itemTexts (level + 1) others)
    rw [← itemTexts] at hstarts
    rw [text, value?_enclose_list hdepth (by simp [itemTexts]) hstarts]
    refine items?_itemTexts (by simp) h (layout.gap_isSpace level) [] ?_
    rw [text, enclose_cons (by simp [itemTexts])] at hfuel
    simp only [List.length_append, List.length_cons] at hfuel ⊢
    omega

lemma readsBack_object {members : List Member} (hdepth : 0 < depth)
    (hdistinct : (members.map Prod.fst).Nodup)
    (h : ∀ member ∈ members, layout.ReadsBack depth member.2) :
    layout.ReadsBack (depth + 1) (.object members) := by
  intro level fuel rest hrest hfuel
  obtain ⟨fuel, rfl⟩ : ∃ more, fuel = more + 1 := ⟨fuel - 1, by omega⟩
  cases members with
  | nil => exact value?_object_nil hdepth
  | cons member others =>
    have hquote : Starts '"' := ⟨by decide, by decide, by decide⟩
    have hstarts : ∃ c first, joinPieces (',' :: layout.gap (level + 1))
        (layout.memberTexts (level + 1) (member :: others)) = c :: first ∧ Starts c :=
      joinPieces_starts ⟨'"', _, rfl, hquote⟩ _ _
    rw [text, value?_enclose_object hdepth (by simp [memberTexts]) hstarts]
    refine members?_memberTexts (by simp) h (layout.gap_isSpace level) [] hdistinct ?_
    rw [text, enclose_cons (by simp [memberTexts])] at hfuel
    simp only [List.length_append, List.length_cons] at hfuel ⊢
    omega

/-- A legible value is read back from every text that lays it out. -/
theorem readsBack {levels : Nat} {value : Json} (h : Legible levels value)
    (hdepth : levels < depth) : layout.ReadsBack depth value := by
  have hnumbers (n : Number) (hn : n.OccursIn value) : n.Legible := h.number hn
  obtain ⟨hformed, -⟩ := h
  induction hformed generalizing depth with
  | scalar hscalar => exact readsBack_scalar hscalar fun n hn => hnumbers n (hn ▸ .here)
  | @list levels items h ih =>
    obtain ⟨depth, rfl⟩ : ∃ less, depth = less + 1 := ⟨depth - 1, by omega⟩
    exact readsBack_list (by omega) fun item hmem =>
      ih item hmem (by omega) fun n hn => hnumbers n (.item hmem hn)
  | @object levels members distinct h ih =>
    obtain ⟨depth, rfl⟩ : ∃ less, depth = less + 1 := ⟨depth - 1, by omega⟩
    exact readsBack_object (by omega) distinct fun member hmem =>
      ih member hmem (by omega) fun n hn => hnumbers n (.value hmem hn)

end Layout

theorem read?_text (layout : Layout) {value : Json} (h : Legible levels value)
    (hlevels : levels < depthLimit) {blanks : List Char} (hblanks : ∀ c ∈ blanks, isSpace c) :
    read? (layout.text 0 value ++ blanks) = some value := by
  have hends : EndsLiteral blanks := by
    simpa using endsLiteral_append hblanks endsLiteral_nil
  have hvalue := layout.readsBack h hlevels 0
    (2 * (layout.text 0 value ++ blanks).length + 2) blanks hends (by omega)
  have hskip : skipSpace blanks = [] := List.dropWhile_eq_nil_iff.mpr hblanks
  rw [read?, hvalue]
  simp [hskip]

theorem read?_compact {value : Json} (h : Legible levels value) (hlevels : levels < depthLimit) :
    read? value.compact = some value := by
  have hblanks : ∀ c ∈ ([] : List Char), isSpace c := by simp
  simpa [Layout.text_dense] using read?_text .dense h hlevels hblanks

theorem read?_pretty {value : Json} (h : Legible levels value) (hlevels : levels < depthLimit) :
    read? (value.pretty ++ ['\n']) = some value := by
  rw [pretty, ← Layout.text_airy]
  exact read?_text .airy h hlevels (by simp [isSpace])

end Json

end RecordMapping

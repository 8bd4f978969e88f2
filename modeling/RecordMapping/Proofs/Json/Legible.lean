import RecordMapping.Proofs.Json.ReadBack
import RecordMapping.Proofs.Number.Doubles

/-!
# Which documents are read back

A document is read back from a text that lays it out exactly when it is legible: its containers are
nested less deep than the reader's limit, the names of each object are distinct, and its doubles are
read back. So whether a document is read back does not depend on the layout.
-/

namespace RecordMapping

namespace Json

variable {levels fuel depth : Nat}

lemma exists_value?_of_items? {done : List Json} {text : List Char} {read : Json × List Char}
    (h : items? (fuel + 1) depth done text = some read) :
    ∃ value tail, value? fuel depth text = some (value, tail) := by
  simp only [items?, Option.bind_eq_bind, Option.bind_eq_some_iff] at h
  obtain ⟨⟨value, tail⟩, hvalue, -⟩ := h
  exact ⟨value, tail, hvalue⟩

lemma exists_value?_of_members? {name : String} {done : List Member} {text : List Char}
    {read : Json × List Char}
    (h : members? (fuel + 1) depth done (quoted name ++ ':' :: text) = some read) :
    ∃ value tail, value? fuel depth text = some (value, tail) := by
  obtain ⟨body, hquoted, hread⟩ := stringBody?_quoted name (':' :: text)
  have hcolon : skipSpace (':' :: text) = ':' :: text := skipSpace_cons (by decide) text
  rw [hquoted, members?, skipSpace_cons (by decide)] at h
  simp only [hread, hcolon, Option.bind_eq_bind, Option.bind_some, Option.bind_eq_some_iff] at h
  obtain ⟨⟨value, tail⟩, hvalue, -⟩ := h
  exact ⟨value, tail, hvalue⟩

/-- Containers are read with some fuel left and two levels left at least. -/
lemma exists_of_value?_open {opening : Char} (hopen : opening = '[' ∨ opening = '{')
    {text : List Char} {read : Json × List Char}
    (h : value? fuel depth (opening :: text) = some read) :
    ∃ lessFuel lessDepth, fuel = lessFuel + 1 ∧ depth = lessDepth + 1 ∧ 0 < lessDepth := by
  cases fuel with
  | zero => cases h
  | succ fuel =>
    have hdepth : ¬ depth ≤ 1 := by
      intro hlimit
      obtain rfl | rfl := hopen <;> simp [value?, skipSpace, isSpace, hlimit] at h
    exact ⟨fuel, depth - 1, rfl, by omega, by omega⟩

namespace Layout

/-- Whether a value that is read from its text, on any level and before any text, is read to the end
of its text, and has legible doubles if it is the value that was laid out. -/
def ReadsWhole (layout : Layout) (value : Json) : Prop :=
  ∀ (level fuel depth : Nat) (rest after : List Char) (found : Json), EndsLiteral rest →
    value? fuel depth (layout.text level value ++ rest) = some (found, after) →
      after = rest ∧ (found = value → HasLegibleDoubles value)

variable {layout : Layout} {level : Nat} {blanks rest after : List Char} {found : Json}

lemma starts_text (layout : Layout) (level : Nat) (value : Json) :
    ∃ c rest, layout.text level value = c :: rest ∧ Starts c :=
  layout.text_starts level value fun n _ => n.text_ne_nil

lemma readsWhole_scalar {value : Json} (hscalar : value.isContainer = false) :
    layout.ReadsWhole value := by
  intro level fuel depth rest after found hrest hread
  cases fuel with
  | zero => cases hread
  | succ fuel =>
    have hnone (hvalue : ∀ n, value ≠ .number n) (hcontainer : value.isContainer = false) :
        HasLegibleDoubles value := by
      rintro x (_ | _ | _)
      · exact absurd rfl (hvalue _)
      · cases hcontainer
      · cases hcontainer
    cases value with
    | null =>
      obtain ⟨rfl, rfl⟩ := Prod.mk.inj (Option.some.inj ((value?_null _ _ _).symm.trans hread))
      exact ⟨rfl, fun _ => hnone (by simp) rfl⟩
    | bool b =>
      obtain ⟨rfl, rfl⟩ := Prod.mk.inj (Option.some.inj ((value?_bool b _ _ _).symm.trans hread))
      exact ⟨rfl, fun _ => hnone (by simp) rfl⟩
    | string s =>
      obtain ⟨rfl, rfl⟩ := Prod.mk.inj (Option.some.inj ((value?_string s _ _ _).symm.trans hread))
      exact ⟨rfl, fun _ => hnone (by simp) rfl⟩
    | number n =>
      rw [text, compact, value?_numberText n.text_ne_nil] at hread
      obtain ⟨⟨m, tail⟩, hliteral, hfound⟩ := Option.map_eq_some_iff.mp hread
      obtain ⟨rfl, rfl⟩ := Prod.mk.inj hfound
      obtain ⟨hend, hlegible⟩ := Number.read?_text_append hrest hliteral
      refine ⟨hend, fun hsame => ?_⟩
      rintro x (_ | _)
      exact hlegible (number.inj hsame)
    | list items => cases hscalar
    | object members => cases hscalar

lemma exists_items?_itemTexts {items : List Json} (hne : items ≠ [])
    (h : ∀ item ∈ items, layout.ReadsWhole item) (hblanks : ∀ c ∈ blanks, isSpace c)
    {done : List Json}
    (hread : items? fuel depth done
      (joinPieces (',' :: layout.gap level) (layout.itemTexts level items) ++
        (blanks ++ ']' :: rest)) = some (found, after)) :
    after = rest ∧ ∃ others, found = .list (done.reverse ++ others) ∧
      (others = items → ∀ item ∈ items, HasLegibleDoubles item) := by
  induction items generalizing done fuel with
  | nil => exact absurd rfl hne
  | cons item others ih =>
    obtain ⟨hitem, hothers⟩ := List.forall_mem_cons.mp h
    cases fuel with
    | zero => cases hread
    | succ fuel =>
      cases others with
      | nil =>
        have hclose : EndsLiteral (']' :: rest) :=
          endsLiteral_cons (by decide) (by decide) (by decide) (by decide) rest
        obtain ⟨value, tail, hvalue⟩ := exists_value?_of_items? hread
        obtain ⟨rfl, hlegible⟩ :=
          hitem level fuel depth _ tail value (endsLiteral_append hblanks hclose) hvalue
        rw [items?_close done hblanks hvalue] at hread
        cases hread
        refine ⟨rfl, [value], rfl, fun hsame => ?_⟩
        simpa using hlegible (List.cons.inj hsame).1
      | cons next others =>
        rw [joinItems_append] at hread
        obtain ⟨value, tail, hvalue⟩ := exists_value?_of_items? hread
        obtain ⟨rfl, hlegible⟩ := hitem level fuel depth _ tail value
          (endsLiteral_cons (by decide) (by decide) (by decide) (by decide) _) hvalue
        rw [items?_comma done hvalue, items?_append (layout.gap_isSpace level)] at hread
        obtain ⟨rfl, later, rfl, hlater⟩ := ih (by simp) hothers hread
        refine ⟨rfl, value :: later, by simp, fun hsame => ?_⟩
        obtain ⟨hfirst, hrest⟩ := List.cons.inj hsame
        exact List.forall_mem_cons.mpr ⟨hlegible hfirst, hlater hrest⟩

lemma exists_members?_memberTexts {members : List Member} (hne : members ≠ [])
    (h : ∀ member ∈ members, layout.ReadsWhole member.2) (hblanks : ∀ c ∈ blanks, isSpace c)
    {done : List Member} (hdistinct : ((done ++ members).map Prod.fst).Nodup)
    (hread : members? fuel depth done
      (joinPieces (',' :: layout.gap level) (layout.memberTexts level members) ++
        (blanks ++ '}' :: rest)) = some (found, after)) :
    after = rest ∧ ∃ others, found = .object (done ++ others) ∧
      (others = members → ∀ member ∈ members, HasLegibleDoubles member.2) := by
  induction members generalizing done fuel with
  | nil => exact absurd rfl hne
  | cons member others ih =>
    obtain ⟨name, laid⟩ := member
    obtain ⟨hmember, hothers⟩ := List.forall_mem_cons.mp h
    have hput (value : Json) : putMember name value done = done ++ [(name, value)] :=
      putMember_of_nodup (by simpa using hdistinct)
    have hlaid {fuel : Nat} {rest tail : List Char} {value : Json} (hends : EndsLiteral rest)
        (hvalue : value? fuel depth (layout.colonGap ++ (layout.text level laid ++ rest)) =
          some (value, tail)) : tail = rest ∧ (value = laid → HasLegibleDoubles laid) := by
      rw [value?_append layout.colonGap_isSpace] at hvalue
      exact hmember level fuel depth rest tail value hends hvalue
    cases fuel with
    | zero => cases hread
    | succ fuel =>
      cases others with
      | nil =>
        have hclose : EndsLiteral ('}' :: rest) :=
          endsLiteral_cons (by decide) (by decide) (by decide) (by decide) rest
        rw [joinMember_append] at hread
        obtain ⟨value, tail, hvalue⟩ := exists_value?_of_members? hread
        obtain ⟨rfl, hlegible⟩ := hlaid (endsLiteral_append hblanks hclose) hvalue
        rw [members?_close name done hblanks hvalue, hput] at hread
        cases hread
        refine ⟨rfl, [(name, value)], rfl, fun hsame => ?_⟩
        simpa using hlegible (Prod.mk.inj (List.cons.inj hsame).1).2
      | cons next others =>
        rw [joinMembers_append] at hread
        obtain ⟨value, tail, hvalue⟩ := exists_value?_of_members? hread
        obtain ⟨rfl, hlegible⟩ :=
          hlaid (endsLiteral_cons (by decide) (by decide) (by decide) (by decide) _) hvalue
        rw [members?_comma name done hvalue, members?_append (layout.gap_isSpace level),
          hput] at hread
        obtain ⟨rfl, later, rfl, hlater⟩ := ih (by simp) hothers (by simpa using hdistinct) hread
        refine ⟨rfl, (name, value) :: later, by simp, fun hsame => ?_⟩
        obtain ⟨hfirst, hrest⟩ := List.cons.inj hsame
        exact List.forall_mem_cons.mpr ⟨hlegible (Prod.mk.inj hfirst).2, hlater hrest⟩

lemma readsWhole_list {items : List Json} (h : ∀ item ∈ items, layout.ReadsWhole item) :
    layout.ReadsWhole (.list items) := by
  intro level fuel depth rest after found hrest hread
  obtain ⟨tail, htail⟩ := layout.exists_enclose level '[' ']' (layout.itemTexts (level + 1) items)
  obtain ⟨fuel, depth, rfl, rfl, hdepth⟩ : ∃ lessFuel lessDepth, fuel = lessFuel + 1 ∧
      depth = lessDepth + 1 ∧ 0 < lessDepth := by
    rw [text, htail] at hread
    exact exists_of_value?_open (.inl rfl) hread
  cases items with
  | nil =>
    rw [value?_list_nil hdepth] at hread
    cases hread
    exact ⟨rfl, fun _ => hasLegibleDoubles_list (by simp)⟩
  | cons item others =>
    have hstarts := joinPieces_starts (layout.starts_text (level + 1) item)
      (',' :: layout.gap (level + 1)) (layout.itemTexts (level + 1) others)
    rw [← itemTexts] at hstarts
    rw [text, value?_enclose_list hdepth (by simp [itemTexts]) hstarts] at hread
    obtain ⟨hend, read, rfl, hlegible⟩ :=
      exists_items?_itemTexts (by simp) h (layout.gap_isSpace level) hread
    exact ⟨hend, fun hsame => hasLegibleDoubles_list (hlegible (list.inj hsame))⟩

lemma readsWhole_object {members : List Member} (hdistinct : (members.map Prod.fst).Nodup)
    (h : ∀ member ∈ members, layout.ReadsWhole member.2) :
    layout.ReadsWhole (.object members) := by
  intro level fuel depth rest after found hrest hread
  obtain ⟨tail, htail⟩ :=
    layout.exists_enclose level '{' '}' (layout.memberTexts (level + 1) members)
  obtain ⟨fuel, depth, rfl, rfl, hdepth⟩ : ∃ lessFuel lessDepth, fuel = lessFuel + 1 ∧
      depth = lessDepth + 1 ∧ 0 < lessDepth := by
    rw [text, htail] at hread
    exact exists_of_value?_open (.inr rfl) hread
  cases members with
  | nil =>
    rw [value?_object_nil hdepth] at hread
    cases hread
    exact ⟨rfl, fun _ => hasLegibleDoubles_object (by simp)⟩
  | cons member others =>
    have hquote : Starts '"' := ⟨by decide, by decide, by decide⟩
    have hstarts : ∃ c first, joinPieces (',' :: layout.gap (level + 1))
        (layout.memberTexts (level + 1) (member :: others)) = c :: first ∧ Starts c :=
      joinPieces_starts ⟨'"', _, rfl, hquote⟩ _ _
    rw [text, value?_enclose_object hdepth (by simp [memberTexts]) hstarts] at hread
    obtain ⟨hend, read, rfl, hlegible⟩ := exists_members?_memberTexts (by simp) h
      (layout.gap_isSpace level) hdistinct hread
    exact ⟨hend, fun hsame => hasLegibleDoubles_object (hlegible (object.inj hsame))⟩

theorem readsWhole {value : Json} (h : Formed levels value) : layout.ReadsWhole value := by
  induction h with
  | scalar hscalar => exact readsWhole_scalar hscalar
  | list h ih => exact readsWhole_list ih
  | object distinct h ih => exact readsWhole_object distinct ih

end Layout

/-- A document is read back from a text that lays it out, between blanks, exactly when it is
legible. -/
theorem read?_text_iff (layout : Layout) {value : Json} {blanks : List Char}
    (hblanks : ∀ c ∈ blanks, isSpace c) :
    read? (layout.text 0 value ++ blanks) = some value ↔ Legible (depthLimit - 1) value := by
  constructor
  · intro h
    have hformed := formed_of_read? h
    have hends : EndsLiteral blanks := by
      simpa using endsLiteral_append hblanks endsLiteral_nil
    simp only [read?, Option.bind_eq_bind, Option.bind_eq_some_iff] at h
    obtain ⟨⟨found, after⟩, hread, hfound⟩ := h
    have hsame : found = value := by
      dsimp only at hfound
      split at hfound
      · exact Option.some.inj hfound
      · cases hfound
    exact ⟨hformed, (layout.readsWhole hformed 0 _ _ blanks after found hends hread).2 hsame⟩
  · intro h
    exact read?_text layout h (by decide) hblanks

theorem read?_compact_iff {value : Json} :
    read? value.compact = some value ↔ Legible (depthLimit - 1) value := by
  have hblanks : ∀ c ∈ ([] : List Char), isSpace c := by simp
  simpa [Layout.text_dense] using read?_text_iff .dense hblanks

end Json

end RecordMapping

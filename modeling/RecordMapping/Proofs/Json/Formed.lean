import RecordMapping.Json.Reader
import RecordMapping.Proofs.Document.InPlace
import RecordMapping.Proofs.Document.Lens
import RecordMapping.Proofs.Number.Literals

namespace RecordMapping

lemma findMember_eq_none_iff {name : String} {members : List Member} :
    findMember name members = none ↔ name ∉ members.map Prod.fst := by
  induction members with
  | nil => simp [findMember]
  | cons member others ih =>
    obtain ⟨key, old⟩ := member
    by_cases hkey : key = name
    · simp [findMember, hkey]
    · simp only [findMember, if_neg hkey, ih, List.map_cons, List.mem_cons, Ne.symm hkey, false_or]

lemma putMember_of_nodup {name : String} {value : Json} {done others : List Member}
    (h : ((done ++ (name, value) :: others).map Prod.fst).Nodup) :
    putMember name value done = done ++ [(name, value)] := by
  have hmissing : name ∉ done.map Prod.fst := by
    intro hmem
    rw [List.map_append, List.nodup_append] at h
    exact h.2.2 name hmem name (by simp) rfl
  exact putMember_of_missing (findMember_eq_none_iff.mpr hmissing) value

lemma nodup_names_putMember {members : List Member} (h : (members.map Prod.fst).Nodup)
    (name : String) (value : Json) : ((putMember name value members).map Prod.fst).Nodup := by
  rw [names_putMember]
  split
  · exact h
  · rename_i hmissing
    simpa using h.concat hmissing

lemma mem_putMember {name : String} {value : Json} {members : List Member} {member : Member}
    (h : member ∈ putMember name value members) : member ∈ members ∨ member.2 = value := by
  induction members with
  | nil =>
    obtain rfl := List.mem_singleton.mp h
    exact .inr rfl
  | cons first others ih =>
    obtain ⟨key, old⟩ := first
    simp only [putMember] at h
    split at h
    · obtain rfl | h := List.mem_cons.mp h
      · exact .inr rfl
      · exact .inl (List.mem_cons_of_mem _ h)
    · obtain rfl | h := List.mem_cons.mp h
      · exact .inl List.mem_cons_self
      · exact (ih h).imp_left (List.mem_cons_of_mem _)

/-- Whether a number stands somewhere in a document. -/
inductive Number.OccursIn (n : Number) : Json → Prop where
  | here : n.OccursIn (.number n)
  | item {items : List Json} {item : Json} (mem : item ∈ items) (h : n.OccursIn item) :
      n.OccursIn (.list items)
  | value {members : List Member} {member : Member} (mem : member ∈ members)
      (h : n.OccursIn member.2) : n.OccursIn (.object members)

namespace Json

/-- Documents whose containers are nested at most so many levels and whose objects have distinct
names. -/
inductive Formed : Nat → Json → Prop where
  | scalar {levels : Nat} {value : Json} (h : value.isContainer = false) : Formed levels value
  | list {levels : Nat} {items : List Json} (h : ∀ item ∈ items, Formed levels item) :
      Formed (levels + 1) (.list items)
  | object {levels : Nat} {members : List Member} (distinct : (members.map Prod.fst).Nodup)
      (h : ∀ member ∈ members, Formed levels member.2) : Formed (levels + 1) (.object members)

/-- Documents of at most so many levels that can be read back: also their doubles are read back. -/
structure Legible (levels : Nat) (value : Json) : Prop where
  formed : Formed levels value
  doubles : ∀ x : Binary64, Number.OccursIn (.float x) value → Number.Legible (.float x)

variable {levels fuel depth : Nat}

lemma Legible.number {value : Json} (h : Legible levels value) {n : Number}
    (hn : n.OccursIn value) : n.Legible := by
  cases n with
  | integer k fits => exact Number.legible_integer k fits
  | float x => exact h.doubles x hn

/-- Whether every double of a document is read back from its text. -/
def HasLegibleDoubles (value : Json) : Prop :=
  ∀ x : Binary64, Number.OccursIn (.float x) value → Number.Legible (.float x)

lemma hasLegibleDoubles_list {items : List Json} (h : ∀ item ∈ items, HasLegibleDoubles item) :
    HasLegibleDoubles (.list items) := by
  rintro x (_ | ⟨hmem, hx⟩)
  exact h _ hmem x hx

lemma hasLegibleDoubles_object {members : List Member}
    (h : ∀ member ∈ members, HasLegibleDoubles member.2) :
    HasLegibleDoubles (.object members) := by
  rintro x (_ | _ | ⟨hmem, hx⟩)
  exact h _ hmem x hx

lemma Legible.list {items : List Json} (h : ∀ item ∈ items, Legible levels item) :
    Legible (levels + 1) (.list items) :=
  ⟨.list fun item hmem => (h item hmem).formed,
    hasLegibleDoubles_list fun item hmem => (h item hmem).doubles⟩

lemma Legible.object {members : List Member} (distinct : (members.map Prod.fst).Nodup)
    (h : ∀ member ∈ members, Legible levels member.2) : Legible (levels + 1) (.object members) :=
  ⟨.object distinct fun member hmem => (h member hmem).formed,
    hasLegibleDoubles_object fun member hmem => (h member hmem).doubles⟩

lemma legible_null : Legible levels .null := ⟨.scalar rfl, fun x hx => by cases hx⟩

lemma legible_string (s : String) : Legible levels (.string s) :=
  ⟨.scalar rfl, fun x hx => by cases hx⟩

lemma legible_number {n : Number} (h : n.Legible) : Legible levels (.number n) := by
  refine ⟨.scalar rfl, ?_⟩
  rintro _ (_ | _)
  exact h

lemma Legible.putMember {members : List Member} (h : Legible levels (.object members))
    (name text : String) : Legible levels (.object (putMember name (.string text) members)) := by
  obtain ⟨hformed, hdoubles⟩ := h
  cases hformed with
  | scalar hscalar => cases hscalar
  | object distinct hvalues =>
    refine ⟨.object (nodup_names_putMember distinct name _) fun member hmem => ?_, ?_⟩
    · obtain hmem | htext := mem_putMember hmem
      · exact hvalues member hmem
      · rw [htext]
        exact .scalar rfl
    · rintro x (_ | _ | ⟨hmem, hx⟩)
      obtain hmem | htext := mem_putMember hmem
      · exact hdoubles x (.value hmem hx)
      · rw [htext] at hx
        cases hx

/-- What the readers give that have so much fuel. -/
structure ReadsFormed (fuel : Nat) : Prop where
  value {depth : Nat} {text rest : List Char} {value : Json}
    (h : value? fuel depth text = some (value, rest)) : Formed (depth - 1) value
  items {depth : Nat} {done : List Json} {text rest : List Char} {value : Json}
    (hdone : ∀ item ∈ done, Formed (depth - 1) item)
    (h : items? fuel depth done text = some (value, rest)) : Formed (depth - 1 + 1) value
  members {depth : Nat} {done : List Member} {text rest : List Char} {value : Json}
    (distinct : (done.map Prod.fst).Nodup) (hdone : ∀ member ∈ done, Formed (depth - 1) member.2)
    (h : members? fuel depth done text = some (value, rest)) : Formed (depth - 1 + 1) value

lemma ReadsFormed.value_succ (h : ReadsFormed fuel) {text rest : List Char} {value : Json}
    (hread : value? (fuel + 1) depth text = some (value, rest)) : Formed (depth - 1) value := by
  simp only [value?] at hread
  split at hread
  · cases hread
  · split_ifs at hread with hdepth
    obtain ⟨less, rfl⟩ : ∃ less, depth = less + 2 := ⟨depth - 2, by omega⟩
    split at hread
    · cases hread
      exact .list (by simp)
    · exact h.items (by simp) hread
  · split_ifs at hread with hdepth
    obtain ⟨less, rfl⟩ : ∃ less, depth = less + 2 := ⟨depth - 2, by omega⟩
    split at hread
    · cases hread
      exact .object (by simp) (by simp)
    · exact h.members (by simp) (by simp) hread
  · obtain ⟨⟨s, after⟩, -, hread⟩ := Option.bind_eq_some_iff.mp hread
    cases hread
    exact .scalar rfl
  · split_ifs at hread
    all_goals
      obtain ⟨found, -, hread⟩ := Option.map_eq_some_iff.mp hread
      cases hread
      exact .scalar rfl

lemma ReadsFormed.items_succ (h : ReadsFormed fuel) {done : List Json} {text rest : List Char}
    {value : Json} (hdone : ∀ item ∈ done, Formed (depth - 1) item)
    (hread : items? (fuel + 1) depth done text = some (value, rest)) :
    Formed (depth - 1 + 1) value := by
  simp only [items?, Option.bind_eq_bind, Option.bind_eq_some_iff] at hread
  obtain ⟨⟨item, after⟩, hitem, hread⟩ := hread
  have hdone : ∀ old ∈ item :: done, Formed (depth - 1) old :=
    List.forall_mem_cons.mpr ⟨h.value hitem, hdone⟩
  dsimp only at hread
  split at hread
  · exact h.items hdone hread
  · cases hread
    exact .list fun old hmem => hdone old (List.mem_reverse.mp hmem)
  · cases hread

lemma ReadsFormed.members_succ (h : ReadsFormed fuel) {done : List Member}
    {text rest : List Char} {value : Json} (distinct : (done.map Prod.fst).Nodup)
    (hdone : ∀ member ∈ done, Formed (depth - 1) member.2)
    (hread : members? (fuel + 1) depth done text = some (value, rest)) :
    Formed (depth - 1 + 1) value := by
  simp only [members?, Option.bind_eq_bind] at hread
  split at hread
  · rw [Option.bind_eq_some_iff] at hread
    obtain ⟨⟨name, after⟩, -, hread⟩ := hread
    dsimp only at hread
    split at hread
    · rw [Option.bind_eq_some_iff] at hread
      obtain ⟨⟨member, after⟩, hmember, hread⟩ := hread
      have distinct := nodup_names_putMember distinct name member
      have hdone : ∀ old ∈ putMember name member done, Formed (depth - 1) old.2 := by
        intro old hmem
        obtain hmem | hvalue := mem_putMember hmem
        · exact hdone old hmem
        · exact hvalue ▸ h.value hmember
      dsimp only at hread
      split at hread
      · exact h.members distinct hdone hread
      · cases hread
        exact .object distinct hdone
      · cases hread
    · cases hread
  · cases hread

lemma readsFormed (fuel : Nat) : ReadsFormed fuel := by
  -- The three readers call each other with less fuel, so one induction carries them all.
  induction fuel with
  | zero =>
    constructor
    · intro depth text rest value h
      cases h
    · intro depth done text rest value _ h
      cases h
    · intro depth done text rest value _ _ h
      cases h
  | succ fuel ih =>
    constructor
    · exact ih.value_succ
    · exact ih.items_succ
    · exact ih.members_succ

/-- Every text that is read gives a document of distinct names, nested less deep than the limit. -/
theorem formed_of_read? {text : List Char} {value : Json} (h : read? text = some value) :
    Formed (depthLimit - 1) value := by
  simp only [read?, Option.bind_eq_bind, Option.bind_eq_some_iff] at h
  obtain ⟨⟨found, rest⟩, hread, h⟩ := h
  dsimp only at h
  split at h
  · cases h
    exact (readsFormed _).value hread
  · cases h

end Json

end RecordMapping

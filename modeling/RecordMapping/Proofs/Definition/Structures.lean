import RecordMapping.Proofs.Definition.Blocks

/-!
# Reading members of structures

A structure is read member by member into a draft. What is put there is kept: a member that can only
be set by its own name keeps its default if it is not given, and holds what it was given otherwise.
The members that a structure is written with lead a draft of it to the structure.
-/

namespace RecordMapping

namespace Decode

variable {α β : Type} {put : α → String → Datum → Decoded (Option α)}

lemma bind_some_ok {read : Decoded β} {set : β → α} {next : α}
    (h : (do return some (set (← read)) : Decoded (Option α)) = .ok (some next)) :
    ∃ value, read = .ok value ∧ next = set value := by
  obtain ⟨value, hread, hnext⟩ := bind_ok h
  cases hnext
  exact ⟨value, hread, rfl⟩

lemma put_of_takesBack {read : Datum → Decoded β} {write : β → Json} {value : β}
    (h : TakesBack read write value) (set : β → α) :
    (do return some (set (← read (.ofJson (write value)))) : Decoded (Option α)) =
      .ok (some (set value)) := by
  rw [TakesBack] at h
  rw [h]
  rfl

lemma required_ok {name : String} {given : Option β} {value : β}
    (h : required name given = .ok value) : given = some value := by
  cases given with
  | none => cases h
  | some found => rw [Except.ok.inj h]

/-- Members that lead one draft to another, each put after the one before it. -/
inductive Puts (put : α → String → Datum → Decoded (Option α)) : List Member → α → α → Prop where
  | nil {draft : α} : Puts put [] draft draft
  | cons {name : String} {value : Json} {rest : List Member} {draft next result : α} :
      put draft name (.ofJson value) = .ok (some next) → Puts put rest next result →
      Puts put ((name, value) :: rest) draft result

def entriesOf (members : List Member) : List (String × Datum) :=
  members.map fun member => (member.1, .ofJson member.2)

lemma namedEntries_ofMembers (names : List String) (members : List Member) :
    namedEntries names (Datum.ofMembers members) = .ok (entriesOf members) := by
  induction members with
  | nil => rfl
  | cons member rest ih =>
    simp only [Datum.ofMembers, namedEntries, named, ih]
    rfl

lemma fill_of_puts {members : List Member} {start result : α} (h : Puts put members start result)
    {seen : List String} (hnames : (seen ++ members.map Prod.fst).Nodup) :
    fill put seen (entriesOf members) start = .ok result := by
  induction h generalizing seen with
  | nil => rfl
  | @cons name value rest draft next result hput _ ih =>
    have hperm : (name :: seen ++ rest.map Prod.fst).Perm
        (seen ++ ((name, value) :: rest).map Prod.fst) := List.perm_middle.symm
    have hnodup := hperm.nodup_iff.mpr hnames
    have hnew : seen.contains name = false := by
      have hnot : name ∉ seen ++ rest.map Prod.fst := (List.nodup_cons.mp hnodup).1
      rw [← Bool.not_eq_true, List.contains_iff_mem]
      exact fun hmem => hnot (List.mem_append_left _ hmem)
    simp only [entriesOf, List.map_cons, fill, hnew, hput]
    exact ih hnodup

/-- A structure is read from the object of all its members. -/
theorem draft_of_puts {kept : Bool} {structure_ : String} {rules : Members}
    {members : List Member} {start result : α} (h : Puts put members start result)
    (hnames : members.map Prod.fst = rules.names) (hdistinct : rules.names.Nodup) :
    draft kept structure_ rules put start (.ofJson (.object members)) = .ok result := by
  have hfill : fill put [] (entriesOf members) start = .ok result :=
    fill_of_puts h (hnames ▸ hdistinct)
  simp only [Datum.ofJson, draft, namedEntries_ofMembers, hfill]

variable {entries : List (String × Datum)} {seen : List String} {start result : α}

lemma fill_invariant {p : α → Prop}
    (hput : ∀ draft name datum next, p draft → put draft name datum = .ok (some next) → p next)
    (h : fill put seen entries start = .ok result) (hstart : p start) : p result := by
  induction entries generalizing seen start with
  | nil =>
    cases h
    exact hstart
  | cons entry rest ih =>
    obtain ⟨name, datum⟩ := entry
    unfold fill at h
    split_ifs at h
    split at h
    · cases h
    · exact ih h hstart
    · rename_i next hnext
      exact ih h (hput start name datum next hstart hnext)

lemma draft_invariant {p : α → Prop} {kept : Bool} {structure_ : String} {rules : Members}
    {datum : Datum}
    (hput : ∀ draft name datum next, p draft → put draft name datum = .ok (some next) → p next)
    (h : draft kept structure_ rules put start datum = .ok result) (hstart : p start) :
    p result := by
  unfold draft at h
  split at h
  · split at h
    · cases h
    · rename_i filled hfilled
      split at h
      · cases h
      · cases h
        exact fill_invariant hput hfilled hstart
  · split at h
    · cases h
    · exact fill_invariant hput h hstart
  · cases h

/-- The value that a document gives to a member of a structure, by its name or by its place. -/
def given? (names : List String) (name : String) : Json → Option Json
  | .object members => findMember name members
  | .list items => findMember name (names.zip items)
  | _ => none

lemma mem_of_findMember {name : String} {value : Json} {members : List Member}
    (h : findMember name members = some value) : (name, value) ∈ members := by
  induction members with
  | nil => cases h
  | cons member rest ih =>
    obtain ⟨key, old⟩ := member
    unfold findMember at h
    split_ifs at h with hkey
    · cases h
      exact hkey ▸ List.mem_cons_self
    · exact List.mem_cons_of_mem _ (ih h)

lemma exists_fill {kept : Bool} {structure_ : String} {rules : Members} {document : Json}
    (h : draft kept structure_ rules put start (.ofJson document) = .ok result) :
    ∃ members, fill put [] (entriesOf members) start = .ok result ∧ ∀ name,
      (∀ value, given? rules.names name document = some value → (name, value) ∈ members) ∧
      (given? rules.names name document = none → ∀ member ∈ members, member.1 ≠ name) := by
  suffices hfill : ∃ members, fill put [] (entriesOf members) start = .ok result ∧
      ∀ name, given? rules.names name document = findMember name members by
    obtain ⟨members, hfilled, hgiven⟩ := hfill
    refine ⟨members, hfilled, fun name => ⟨fun value hvalue => ?_, ?_⟩⟩
    · exact mem_of_findMember ((hgiven name).symm.trans hvalue)
    · rintro hnone member hmem rfl
      rw [hgiven, findMember_eq_none_iff] at hnone
      exact hnone (List.mem_map_of_mem hmem)
  cases document with
  | list items =>
    have hzip : rules.names.zip (items.map Datum.ofJson) = entriesOf (rules.names.zip items) := by
      rw [entriesOf, List.zip_map_right]
      rfl
    simp only [Datum.ofJson, draft, Datum.ofItems_eq_map, hzip] at h
    split at h
    · cases h
    · rename_i filled hfilled
      split at h
      · cases h
      · cases h
        exact ⟨rules.names.zip items, hfilled, fun name => rfl⟩
  | object members =>
    simp only [Datum.ofJson, draft, namedEntries_ofMembers] at h
    exact ⟨members, h, fun name => rfl⟩
  | _ => cases h

variable {get : α → β} {name : String}

lemma ne_of_seen (h : fill put seen entries start = .ok result) (hseen : name ∈ seen) :
    ∀ entry ∈ entries, entry.1 ≠ name := by
  induction entries generalizing seen start with
  | nil => simp
  | cons entry rest ih =>
    obtain ⟨other, datum⟩ := entry
    unfold fill at h
    split_ifs at h with hother
    have hne : other ≠ name := by
      rintro rfl
      exact hother (List.contains_iff_mem.mpr hseen)
    refine List.forall_mem_cons.mpr ⟨hne, ?_⟩
    split at h
    · cases h
    · exact ih h hseen
    · exact ih h (List.mem_cons_of_mem _ hseen)

/-- What only one member sets stays as it is when the member is not given. -/
lemma fill_of_missing
    (hframe : ∀ draft other datum next, other ≠ name →
      put draft other datum = .ok (some next) → get next = get draft)
    (h : fill put seen entries start = .ok result) (hmissing : ∀ entry ∈ entries, entry.1 ≠ name) :
    get result = get start := by
  induction entries generalizing seen start with
  | nil =>
    cases h
    rfl
  | cons entry rest ih =>
    obtain ⟨other, datum⟩ := entry
    obtain ⟨hother, hrest⟩ := List.forall_mem_cons.mp hmissing
    unfold fill at h
    split_ifs at h
    split at h
    · cases h
    · exact ih h hrest
    · rename_i next hnext
      rw [ih h hrest, hframe start other datum next hother hnext]

/-- What only one member sets is what the member is given. -/
lemma fill_of_mem
    (hframe : ∀ draft other datum next, other ≠ name →
      put draft other datum = .ok (some next) → get next = get draft)
    (hknown : ∀ draft datum, put draft name datum ≠ .ok none)
    {datum : Datum} {value : β}
    (hset : ∀ draft next, put draft name datum = .ok (some next) → get next = value)
    (h : fill put seen entries start = .ok result) (hmem : (name, datum) ∈ entries) :
    get result = value := by
  induction entries generalizing seen start with
  | nil => cases hmem
  | cons entry rest ih =>
    obtain ⟨other, first⟩ := entry
    unfold fill at h
    split_ifs at h
    split at h
    · cases h
    · rename_i hnone
      obtain hsame | hmem := List.mem_cons.mp hmem
      · cases hsame
        exact absurd hnone (hknown start datum)
      · exact ih h hmem
    · rename_i next hnext
      obtain hsame | hmem := List.mem_cons.mp hmem
      · cases hsame
        rw [fill_of_missing hframe h (ne_of_seen h List.mem_cons_self), hset start next hnext]
      · exact ih h hmem

end Decode

end RecordMapping

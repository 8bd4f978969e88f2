import Mathlib.Data.List.Induction
import Mathlib.Data.List.Perm.Basic
import RecordMapping.Dictionary

namespace RecordMapping

namespace Dictionary

variable {α β : Type}

@[simp] lemma find?_empty (name : String) : (empty : Dictionary α).find? name = none := rfl

lemma find?_insertEntry (name other : String) (value : α) (entries : List (String × α)) :
    ((insertEntry name value entries).find? (·.1 == other)).map Prod.snd =
      if other = name then some value else (entries.find? (·.1 == other)).map Prod.snd := by
  induction entries with
  | nil =>
    by_cases h : other = name
    · simp [insertEntry, h]
    · simp [insertEntry, h, Ne.symm h]
  | cons head rest ih =>
    obtain ⟨key, old⟩ := head
    simp only [insertEntry]
    split
    · by_cases h : other = name
      · simp [h]
      · simp [h, Ne.symm h]
    · split
      · rename_i heq
        by_cases h : other = name
        · simp [h]
        · simp [h, Ne.symm h, heq]
      · rename_i hne
        by_cases hk : key = other
        · have h : other ≠ name := fun h => hne (hk.trans h)
          simp [hk, h]
        · simpa [hk] using ih

theorem find?_insert (name other : String) (value : α) (d : Dictionary α) :
    (d.insert name value).find? other = if other = name then some value else d.find? other :=
  find?_insertEntry name other value d.entries

@[simp] lemma find?_insert_self (name : String) (value : α) (d : Dictionary α) :
    (d.insert name value).find? name = some value := by
  simp [find?_insert]

lemma find?_insert_of_ne {name other : String} (h : other ≠ name) (value : α) (d : Dictionary α) :
    (d.insert name value).find? other = d.find? other := by
  simp [find?_insert, h]

def insert? (name : String) (value : Option α) (d : Dictionary α) : Dictionary α :=
  match value with
  | some value => d.insert name value
  | none => d

lemma find?_insert?_self (name : String) (value : Option α) (d : Dictionary α) :
    (d.insert? name value).find? name = value.or (d.find? name) := by
  cases value with
  | none => rfl
  | some value => exact find?_insert_self name value d

lemma find?_insert?_of_ne {name other : String} (h : other ≠ name) (value : Option α)
    (d : Dictionary α) : (d.insert? name value).find? other = d.find? other := by
  cases value with
  | none => rfl
  | some value => exact find?_insert_of_ne h value d

/-- When only the first item of a name gives a value, that value is found under the name after all
items were put in. -/
theorem find?_foldl_insert? {ι : Type} (name : ι → String) (value : ι → Option α) {items : List ι}
    (hfirst : items.Pairwise fun a b => name a = name b → value b = none) (d : Dictionary α)
    (other : String) :
    (items.foldl (fun d item => d.insert? (name item) (value item)) d).find? other =
      ((items.find? (name · == other)).bind value).or (d.find? other) := by
  induction items generalizing d with
  | nil => rfl
  | cons item rest ih =>
    obtain ⟨hitem, hrest⟩ := List.pairwise_cons.mp hfirst
    rw [List.foldl_cons, ih hrest]
    by_cases hname : name item = other
    · have hlater : (rest.find? (name · == other)).bind value = none := by
        rw [Option.bind_eq_none_iff]
        intro later hfound
        have hsame : name later = other := by simpa using List.find?_some hfound
        exact hitem later (List.mem_of_find?_eq_some hfound) (hname.trans hsame.symm)
      rw [hlater, Option.none_or, List.find?_cons_of_pos (by simpa using hname), Option.bind_some,
        ← hname, find?_insert?_self]
    · rw [List.find?_cons_of_neg (by simpa using hname), find?_insert?_of_ne (Ne.symm hname)]

lemma nodup_entries (d : Dictionary α) : d.entries.Nodup := by
  refine d.sorted.imp ?_
  rintro a b hab rfl
  exact String.lt_irrefl _ hab

theorem find?_eq_some_iff {name : String} {value : α} {d : Dictionary α} :
    d.find? name = some value ↔ (name, value) ∈ d.entries := by
  obtain ⟨entries, sorted⟩ := d
  simp only [find?]
  induction entries with
  | nil => simp
  | cons head rest ih =>
    obtain ⟨key, old⟩ := head
    obtain ⟨hhead, hrest⟩ := List.pairwise_cons.mp sorted
    have hih := ih hrest
    by_cases hk : key = name
    · subst hk
      have habsent : (key, value) ∉ rest := fun h => String.lt_irrefl key (hhead (key, value) h)
      simp [habsent, eq_comm]
    · simpa [hk, Ne.symm hk] using hih

lemma find?_eq_none_iff {name : String} {d : Dictionary α} :
    d.find? name = none ↔ ∀ value, (name, value) ∉ d.entries := by
  simp only [← find?_eq_some_iff, Option.eq_none_iff_forall_ne_some, ne_eq]

/-- Dictionaries with the same lookups are equal. -/
theorem ext_find? {d e : Dictionary α} (h : ∀ name, d.find? name = e.find? name) : d = e := by
  have hmem : ∀ entry, entry ∈ d.entries ↔ entry ∈ e.entries := by
    intro entry
    rw [← find?_eq_some_iff (d := d), ← find?_eq_some_iff (d := e), h]
  have hperm : d.entries.Perm e.entries :=
    (List.perm_ext_iff_of_nodup d.nodup_entries e.nodup_entries).mpr hmem
  have hanti : ∀ a b, a ∈ d.entries → b ∈ e.entries → a.1 < b.1 → b.1 < a.1 → a = b :=
    fun a b _ _ hab hba => absurd (String.lt_trans hab hba) (String.lt_irrefl _)
  exact ext (hperm.eq_of_pairwise hanti d.sorted e.sorted)

@[simp] lemma find?_map (change : String → α → β) (name : String) (d : Dictionary α) :
    (d.map change).find? name = (d.find? name).map (change name) := by
  obtain ⟨entries, sorted⟩ := d
  simp only [find?, map]
  clear sorted
  induction entries with
  | nil => rfl
  | cons head rest ih =>
    by_cases hk : head.1 = name
    · simp [hk]
    · simpa [hk] using ih

theorem isEmpty_iff {d : Dictionary α} : d.isEmpty ↔ ∀ name, d.find? name = none := by
  obtain ⟨entries, sorted⟩ := d
  simp only [find?_eq_none_iff, isEmpty, List.isEmpty_iff]
  constructor
  · rintro rfl name value h
    cases h
  · intro h
    exact List.eq_nil_iff_forall_not_mem.mpr fun entry hentry => h entry.1 entry.2 hentry

lemma isEmpty_eq_false_iff {d : Dictionary α} :
    d.isEmpty = false ↔ ∃ name value, d.find? name = some value := by
  rw [← Bool.not_eq_true, isEmpty_iff]
  simp only [not_forall, Option.ne_none_iff_exists']

@[simp] lemma find?_filter (test : String → α → Bool) (name : String) (d : Dictionary α) :
    (d.filter test).find? name = (d.find? name).filter (test name) := by
  refine Option.ext fun value => ?_
  rw [find?_eq_some_iff, Option.filter_eq_some_iff, find?_eq_some_iff]
  exact List.mem_filter

/-- The items of lists under names are known by the lists that lookups find, where none is as good
as an empty one. -/
lemma flatMap_entries_eq {d e : Dictionary (List α)}
    (h : ∀ name, (d.find? name).getD [] = (e.find? name).getD []) :
    d.entries.flatMap Prod.snd = e.entries.flatMap Prod.snd := by
  have hkept (d : Dictionary (List α)) :
      (d.filter fun _ items => !items.isEmpty).entries.flatMap Prod.snd =
        d.entries.flatMap Prod.snd := by
    obtain ⟨entries, sorted⟩ := d
    simp only [filter]
    clear sorted
    induction entries with
    | nil => rfl
    | cons entry rest ih =>
      obtain ⟨name, items⟩ := entry
      cases items with
      | nil => simpa using ih
      | cons first more => simpa using ih
  have hfilter (found : Option (List α)) : found.filter (fun items => !items.isEmpty) =
      if (found.getD []).isEmpty then none else some (found.getD []) := by
    cases found with
    | none => rfl
    | some items => cases items <;> rfl
  have hsame : (d.filter fun _ items => !items.isEmpty) =
      e.filter fun _ items => !items.isEmpty := by
    refine ext_find? fun name => ?_
    rw [find?_filter, find?_filter, hfilter, hfilter, h name]
  rw [← hkept d, ← hkept e, hsame]

lemma ofList_append_singleton (entries : List (String × α)) (last : String × α) :
    ofList (entries ++ [last]) = (ofList entries).insert last.1 last.2 := by
  rw [ofList, List.foldl_append]
  rfl

lemma mem_of_mem_ofList {entries : List (String × α)} {entry : String × α}
    (h : entry ∈ (ofList entries).entries) : entry ∈ entries := by
  induction entries using List.reverseRecOn with
  | nil => cases h
  | append_singleton entries last ih =>
    rw [ofList_append_singleton, ← find?_eq_some_iff, find?_insert] at h
    split at h
    · rename_i hname
      have hlast : entry = last := Prod.ext hname (Option.some.inj h).symm
      exact List.mem_append_right _ (List.mem_singleton.mpr hlast)
    · exact List.mem_append_left _ (ih (find?_eq_some_iff.mp h))

lemma nodup_names (d : Dictionary α) : (d.entries.map Prod.fst).Nodup := by
  rw [List.Nodup, List.pairwise_map]
  refine d.sorted.imp fun hlt hsame => ?_
  rw [hsame] at hlt
  exact String.lt_irrefl _ hlt

lemma find?_ofList {entries : List (String × α)} (hnames : (entries.map Prod.fst).Nodup)
    {entry : String × α} (h : entry ∈ entries) : (ofList entries).find? entry.1 = some entry.2 := by
  induction entries using List.reverseRecOn with
  | nil => cases h
  | append_singleton entries last ih =>
    rw [List.map_append, List.nodup_append] at hnames
    obtain ⟨hentries, -, hlast⟩ := hnames
    rw [ofList_append_singleton, find?_insert]
    obtain h | h := List.mem_append.mp h
    · have hne : entry.1 ≠ last.1 :=
        hlast entry.1 (List.mem_map_of_mem h) last.1 (by simp)
      rw [if_neg hne, ih hentries h]
    · obtain rfl := List.mem_singleton.mp h
      rw [if_pos rfl]

/-- A dictionary comes back from its entries in whatever order they are listed. -/
theorem ofList_of_perm {d : Dictionary α} {listed : List (String × α)}
    (h : listed.Perm d.entries) : ofList listed = d := by
  have hnames : (listed.map Prod.fst).Nodup := (h.map Prod.fst).nodup_iff.mpr d.nodup_names
  refine ext_find? fun name => Option.ext fun value => ?_
  constructor
  · intro hfound
    exact find?_eq_some_iff.mpr (h.subset (mem_of_mem_ofList (find?_eq_some_iff.mp hfound)))
  · intro hfound
    exact find?_ofList hnames (h.symm.subset (find?_eq_some_iff.mp hfound))

end Dictionary

end RecordMapping

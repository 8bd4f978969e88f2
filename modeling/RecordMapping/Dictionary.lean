/-!
# Dictionaries in order of their names

A dictionary holds at most one value under each name and lists its names in increasing order, so
two dictionaries that hold the same values are equal.
-/

namespace RecordMapping

/-- Entries with increasing names. -/
structure Dictionary (α : Type) where
  entries : List (String × α)
  sorted : entries.Pairwise (fun a b => a.1 < b.1)

namespace Dictionary

variable {α β : Type}

/-- Entries with one value put at its place. -/
def insertEntry (name : String) (value : α) : List (String × α) → List (String × α)
  | [] => [(name, value)]
  | (key, old) :: rest =>
    if name < key then (name, value) :: (key, old) :: rest
    else if key = name then (name, value) :: rest
    else (key, old) :: insertEntry name value rest

theorem mem_insertEntry {name : String} {value : α} {entries : List (String × α)}
    {entry : String × α} (h : entry ∈ insertEntry name value entries) :
    entry.1 = name ∨ entry ∈ entries := by
  induction entries with
  | nil => simp_all [insertEntry]
  | cons head rest ih =>
    simp only [insertEntry] at h
    split at h
    · simp_all
      rcases h with h | h | h <;> simp_all
    · split at h
      · simp_all
        rcases h with h | h <;> simp_all
      · simp_all
        rcases h with h | h
        · simp_all
        · rcases ih h with h | h <;> simp_all

theorem sorted_insertEntry (name : String) (value : α) {entries : List (String × α)}
    (h : entries.Pairwise (fun a b => a.1 < b.1)) :
    (insertEntry name value entries).Pairwise (fun a b => a.1 < b.1) := by
  induction entries with
  | nil => simp [insertEntry]
  | cons head rest ih =>
    obtain ⟨hhead, hrest⟩ := List.pairwise_cons.1 h
    simp only [insertEntry]
    split
    · rename_i hlt
      refine List.pairwise_cons.2 ⟨fun b hb => ?_, h⟩
      rcases List.mem_cons.1 hb with rfl | hb
      · exact hlt
      · exact String.lt_trans hlt (hhead b hb)
    · split
      · rename_i hlt heq
        subst heq
        exact List.pairwise_cons.2 ⟨fun b hb => hhead b hb, hrest⟩
      · rename_i hlt hne
        refine List.pairwise_cons.2 ⟨fun b hb => ?_, ih hrest⟩
        rcases mem_insertEntry hb with hb | hb
        · rw [hb]
          grind
        · exact hhead b hb

def empty : Dictionary α := ⟨[], List.Pairwise.nil⟩

def insert (name : String) (value : α) (d : Dictionary α) : Dictionary α :=
  ⟨insertEntry name value d.entries, sorted_insertEntry name value d.sorted⟩

/-- The dictionary of a list of entries, of which the last one of each name counts. -/
def ofList (entries : List (String × α)) : Dictionary α :=
  entries.foldl (fun d entry => d.insert entry.1 entry.2) empty

def find? (name : String) (d : Dictionary α) : Option α :=
  (d.entries.find? (·.1 == name)).map Prod.snd

def isEmpty (d : Dictionary α) : Bool := d.entries.isEmpty

def filter (test : String → α → Bool) (d : Dictionary α) : Dictionary α :=
  ⟨d.entries.filter fun entry => test entry.1 entry.2, d.sorted.filter _⟩

/-- Every value changed by a function that sees its name. -/
def map (change : String → α → β) (d : Dictionary α) : Dictionary β :=
  ⟨d.entries.map fun entry => (entry.1, change entry.1 entry.2), List.pairwise_map.2 d.sorted⟩

theorem ext {d e : Dictionary α} (h : d.entries = e.entries) : d = e := by
  cases d
  cases e
  simp_all

instance [DecidableEq α] : DecidableEq (Dictionary α) := fun d e =>
  if h : d.entries = e.entries then isTrue (ext h) else isFalse fun he => h (he ▸ rfl)

end Dictionary

end RecordMapping

import Mathlib
import RecordMapping.Files.Tree

namespace RecordMapping

namespace FileTree

variable {tree written : FileTree} {location other : Location} {entry : FileEntry}
  {path : FilePath} {text : String}

lemma lookup_putEntry (path other : FilePath) (entry : FileEntry)
    (entries : List (FilePath × FileEntry)) :
    (putEntry path entry entries).lookup other =
      if other = path then some entry else entries.lookup other := by
  induction entries with
  | nil => by_cases h : other = path <;> simp [putEntry, h]
  | cons first rest ih =>
    obtain ⟨key, old⟩ := first
    by_cases hkey : key = path
    · subst hkey
      by_cases h : other = key
      · simp [putEntry, h]
      · have hne : (other == key) = false := beq_false_of_ne h
        simp [putEntry, List.lookup_cons, hne, h]
    · by_cases h : other = key
      · have hne : other ≠ path := h ▸ hkey
        simp [putEntry, hkey, h]
      · have hne : (other == key) = false := beq_false_of_ne h
        simp [putEntry, hkey, List.lookup_cons, hne, ih]

lemma entry?_put_self (h : location ≠ []) :
    FileTree.entry? (tree.put location entry) location = some entry := by
  simp [FileTree.entry?, put, h, lookup_putEntry]

lemma entry?_put_of_directory (hother : tree.entry? other = some .directory)
    (hplace : tree.entry? location ≠ some .directory) :
    FileTree.entry? (tree.put location entry) other = some .directory := by
  have hplace_ne : location ≠ [] := by
    rintro rfl
    exact hplace rfl
  by_cases hroot : other = []
  · simp [FileTree.entry?, hroot]
  · simp only [FileTree.entry?, hroot, hplace_ne, if_false] at hother hplace
    have hne : absolute other ≠ absolute location := by
      intro hsame
      exact hplace (hsame ▸ hother)
    simp [FileTree.entry?, put, hroot, lookup_putEntry, hne, hother]

lemma walk_put {names : List String} {start : Location}
    (hplace : tree.entry? location ≠ some .directory)
    (h : tree.walk names start = .ok other) :
    (tree.put location entry).walk names start = .ok other := by
  induction names generalizing start with
  | nil => exact h
  | cons name rest ih =>
    rw [walk] at h
    split at h
    · cases h
    · rename_i hstart
      rw [walk, entry?_put_of_directory hstart hplace]
      split at h
      · rename_i hnext
        exact ih h
      · cases h
    · cases h

lemma locate_put (hplace : tree.entry? location ≠ some .directory)
    (h : tree.locate path = .ok other) : (tree.put location entry).locate path = .ok other := by
  unfold locate at h ⊢
  cases hfault : pathFault? path with
  | some fault =>
    rw [hfault] at h
    cases h
  | none =>
    rw [hfault] at h
    exact walk_put hplace h

/-- A text that was written is read back. -/
theorem readIfAny_of_write (h : tree.write path text = .ok written) :
    written.readIfAny path = .ok (some text) := by
  unfold write at h
  split at h
  · cases h
  · rename_i location hlocate
    split at h
    · cases h
    · rename_i hplace
      obtain rfl := Except.ok.inj h
      have hroot : location ≠ [] := by
        rintro rfl
        exact hplace rfl
      have hlocated : (tree.put location (.file text)).locate path = .ok location :=
        locate_put hplace hlocate
      simp [readIfAny, read, look, hlocated, entry?_put_self hroot]

end FileTree

end RecordMapping

import RecordMapping.Proofs.Files.Frames
import RecordMapping.Proofs.Text.Lines

namespace RecordMapping

variable {base path : FilePath}

namespace FilePath

/-- A path after a path of a directory adds its names, and takes the place of an empty last one. -/
lemma names_join (hbase : base.text ≠ "") (hrelative : path.isAbsolute = false) :
    ∃ stem, (base.join path).names = stem ++ path.names ∧
      (base.names = stem ∨ base.names = stem ++ [""]) := by
  have hempty : base.text.isEmpty = false := by simpa using hbase
  have hslash : "/".toList = ['/'] := rfl
  rw [join, hrelative, hempty]
  by_cases hlast : base.text.toList.getLast? = some '/'
  · obtain ⟨stem, hstem⟩ := List.getLast?_eq_some_iff.mp hlast
    refine ⟨(pieces '/' stem).map String.ofList, ?_, .inr ?_⟩
    · simp [names, hstem, pieces_append_pieces]
    · rw [names, hstem, pieces_append_pieces, List.map_append]
      rfl
  · refine ⟨base.names, ?_, .inl rfl⟩
    simp [hlast, names, hslash, pieces_append_pieces]

lemma isAbsolute_join (hbase : base.text ≠ "") (hrelative : path.isAbsolute = false) :
    (base.join path).isAbsolute = base.isAbsolute := by
  have hempty : base.text.isEmpty = false := by simpa using hbase
  have hchars : base.text.toList ≠ [] := by simpa using hbase
  rw [join, hrelative, hempty]
  by_cases hlast : base.text.toList.getLast? = some '/' <;>
    simp [hlast, isAbsolute, List.head?_append_of_ne_nil _ hchars]

end FilePath

namespace FileTree

variable {tree : FileTree} {location front : Location} {names more : List String}

lemma walk_append (names more : List String) (location : Location) :
    tree.walk (names ++ more) location = (tree.walk names location).bind (tree.walk more) := by
  induction names generalizing location with
  | nil => rfl
  | cons name names ih =>
    rw [List.cons_append, walk, walk]
    cases tree.entry? location with
    | none => rfl
    | some entry =>
      cases entry with
      | directory =>
        cases follow location name with
        | error fault => rfl
        | ok next => exact ih next
      | file text => rfl
      | binary => rfl

lemma entry?_of_walk (hne : names ≠ []) (h : tree.walk names front = .ok location) :
    tree.entry? front = some .directory := by
  obtain ⟨name, names, rfl⟩ := List.exists_cons_of_ne_nil hne
  unfold walk at h
  split at h
  · cases h
  · assumption
  · cases h

theorem walk_join (hbase : base.text ≠ "") (hrelative : path.isAbsolute = false)
    (h : tree.locate (base.join path) = .ok location) :
    ∃ front, tree.walk base.names (tree.origin base) = .ok front ∧
      tree.entry? front = some .directory ∧ tree.walk path.names front = .ok location := by
  have hnames : path.names ≠ [] := by
    simp [FilePath.names, pieces_ne_nil]
  obtain ⟨stem, hjoin, hstem⟩ := FilePath.names_join hbase hrelative
  have horigin : tree.origin (base.join path) = tree.origin base := by
    rw [origin, origin, FilePath.isAbsolute_join hbase hrelative]
  unfold locate at h
  split at h
  · cases h
  · rw [horigin, hjoin, walk_append] at h
    cases hwalk : tree.walk stem (tree.origin base) with
    | error fault =>
      rw [hwalk] at h
      cases h
    | ok front =>
      rw [hwalk] at h
      have hdirectory := entry?_of_walk hnames h
      refine ⟨front, ?_, hdirectory, h⟩
      obtain hsame | hslash := hstem
      · rw [hsame, hwalk]
      · rw [hslash, walk_append, hwalk]
        simp [Except.bind, walk, hdirectory, follow]

lemma walk_proper (hproper : ∀ name ∈ names, name ≠ "" ∧ name ≠ "." ∧ name ≠ "..")
    (h : tree.walk names front = .ok location) : location = front ++ names := by
  induction names generalizing front with
  | nil =>
    cases h
    simp
  | cons name names ih =>
    obtain ⟨⟨hempty, hdot, hup⟩, hrest⟩ := List.forall_mem_cons.mp hproper
    unfold walk at h
    split at h
    · cases h
    · simp only [follow, hempty, hdot, hup, or_self, if_false] at h
      split at h
      · rename_i next hnext
        split_ifs at hnext
        cases hnext
        simpa using ih hrest h
      · cases h
    · cases h

lemma suffix_absolute (front : Location) (name : String) :
    name.toList <:+ (absolute (front ++ [name])).text.toList := by
  have hjoined : name.toList <:+
      "/".toList.intercalate ((front ++ [name]).map String.toList) := by
    induction front with
    | nil => simp
    | cons first front ih =>
      obtain ⟨next, rest, hnext⟩ : ∃ next rest, front ++ [name] = next :: rest := by
        cases front with
        | nil => exact ⟨_, _, rfl⟩
        | cons next front => exact ⟨_, _, rfl⟩
      rw [hnext] at ih
      rw [List.cons_append, hnext, List.map_cons, List.map_cons, List.intercalate_cons_cons]
      exact ih.trans (List.suffix_append _ _)
  rw [absolute, String.toList_append, String.toList_intercalate]
  exact hjoined.trans (List.suffix_append _ _)

lemma absolute_ne {other : Location} {name otherName : String}
    (h : ¬ name.toList <:+ otherName.toList) (hother : ¬ otherName.toList <:+ name.toList) :
    absolute (front ++ [name]) ≠ absolute (other ++ [otherName]) := by
  intro hsame
  have hsuffix := suffix_absolute front name
  rw [hsame] at hsuffix
  exact (List.suffix_or_suffix_of_suffix hsuffix (suffix_absolute other otherName)).elim h hother

lemma entry?_put_of_ne {other : Location} {entry : FileEntry}
    (h : absolute other ≠ absolute location) :
    FileTree.entry? (tree.put location entry) other = tree.entry? other := by
  simp [FileTree.entry?, put, lookup_putEntry, h]

/-- A text is still read after something was written to a place that is not its own. -/
theorem read_write_of_ne {written : FileTree} {other : FilePath} {place : Location}
    {found text : String} (hplace : tree.locate path = .ok place)
    (hread : tree.read path = .ok found) (hother : tree.locate other = .ok location)
    (hwrite : tree.write other text = .ok written) (hne : absolute place ≠ absolute location) :
    written.locate path = .ok place ∧ written.read path = .ok found := by
  unfold write at hwrite
  rw [hother] at hwrite
  dsimp only at hwrite
  split at hwrite
  · cases hwrite
  · rename_i hfree
    obtain rfl := Except.ok.inj hwrite
    have hlocate : (tree.put location (.file text)).locate path = .ok place :=
      locate_put hfree hplace
    refine ⟨hlocate, ?_⟩
    simp only [read, look, hplace] at hread
    simp only [read, look, hlocate, entry?_put_of_ne hne, hread]

end FileTree

end RecordMapping

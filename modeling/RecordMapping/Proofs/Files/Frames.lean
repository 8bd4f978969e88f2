import RecordMapping.Proofs.Files.Written

namespace RecordMapping

namespace FileTree

variable {tree before between after : FileTree} {location next : Location} {entry : FileEntry}
  {path parent place : FilePath} {text : String}

def at? (place : FilePath) (tree : FileTree) : Option FileEntry := tree.entries.lookup place

/-- Trees that come about by making directories that are missing on the way to a path and by putting
texts where the path leads. -/
inductive Writes (path : FilePath) : FileTree → FileTree → Prop where
  | refl (tree : FileTree) : Writes path tree tree
  | directory {tree after : FileTree} {parent : FilePath} {location : Location}
      (above : path.parent? = some parent) (way : location ∈ tree.trail parent)
      (missing : tree.entry? location = none)
      (rest : Writes path (tree.put location .directory) after) : Writes path tree after
  | file {tree after : FileTree} {location : Location} {text : String}
      (leads : tree.locate path = .ok location) (free : tree.entry? location ≠ some .directory)
      (rest : Writes path (tree.put location (.file text)) after) : Writes path tree after

/-- Whether a place was written for the file at a path: it holds the file now and was no directory,
or it was empty and is a directory on the way to the file. -/
inductive WrittenAt (path : FilePath) (before after : FileTree) (place : FilePath) : Prop where
  | file {location : Location} {text : String} (leads : after.locate path = .ok location)
      (here : place = absolute location) (had : before.at? place ≠ some .directory)
      (has : after.at? place = some (.file text)) : WrittenAt path before after place
  | directory {parent : FilePath} {location : Location} (above : path.parent? = some parent)
      (way : location ∈ before.trail parent) (here : place = absolute location)
      (had : before.at? place = none) (has : after.at? place = some .directory) :
      WrittenAt path before after place

lemma entry?_eq_at? (h : tree.entry? location ≠ some .directory) :
    tree.entry? location = tree.at? (absolute location) := by
  rw [FileTree.entry?, if_neg]
  · rfl
  · rintro rfl
    exact h rfl

lemma at?_put_self (location : Location) (entry : FileEntry) (tree : FileTree) :
    (tree.put location entry).at? (absolute location) = some entry := by
  rw [at?, put, lookup_putEntry, if_pos rfl]

lemma at?_put_of_ne (h : place ≠ absolute location) (entry : FileEntry) (tree : FileTree) :
    (tree.put location entry).at? place = tree.at? place := by
  rw [at?, put, lookup_putEntry, if_neg h, at?]

lemma trail_eq_of_start_eq (h : after.start = before.start) (path : FilePath) :
    after.trail path = before.trail path := by
  rw [trail, trail, origin, origin, h]

lemma WrittenAt.of_at?_eq (h : WrittenAt path between after place)
    (hat : between.at? place = before.at? place) (hstart : between.start = before.start) :
    WrittenAt path before after place := by
  cases h with
  | file leads here had has => exact .file leads here (hat ▸ had) has
  | directory above way here had has =>
    rw [trail_eq_of_start_eq hstart] at way
    exact .directory above way here (hat ▸ had) has

namespace Writes

lemma trans (h : Writes path before between) (hrest : Writes path between after) :
    Writes path before after := by
  induction h with
  | refl tree => exact hrest
  | directory above way missing _ ih => exact .directory above way missing (ih hrest)
  | file leads free _ ih => exact .file leads free (ih hrest)

lemma start_eq (h : Writes path before after) : after.start = before.start := by
  induction h with
  | refl tree => rfl
  | directory _ _ _ _ ih => exact ih
  | file _ _ _ ih => exact ih

lemma locate_eq (h : Writes path before after) {other : FilePath}
    (hlocate : before.locate other = .ok location) : after.locate other = .ok location := by
  induction h with
  | refl tree => exact hlocate
  | directory _ _ missing _ ih => exact ih (locate_put (by simp [missing]) hlocate)
  | file _ free _ ih => exact ih (locate_put free hlocate)

theorem writtenAt (h : Writes path before after) (hplace : after.at? place ≠ before.at? place) :
    WrittenAt path before after place := by
  induction h with
  | refl tree => exact absurd rfl hplace
  | @directory tree after parent location above way missing rest ih =>
    by_cases hhere : place = absolute location
    · subst hhere
      have hput := at?_put_self location .directory tree
      have hnone : tree.at? (absolute location) = none := by
        rw [← entry?_eq_at? (by simp [missing]), missing]
      by_cases hsame : after.at? (absolute location) =
          (tree.put location .directory).at? (absolute location)
      · exact .directory above way rfl hnone (hsame.trans hput)
      · cases ih hsame with
        | file _ _ had _ => exact absurd hput had
        | directory _ _ _ had _ => simp [had] at hput
    · have hat := at?_put_of_ne hhere .directory tree
      exact (ih (hat ▸ hplace)).of_at?_eq hat rfl
  | @file tree after location text leads free rest ih =>
    by_cases hhere : place = absolute location
    · subst hhere
      have hput := at?_put_self location (.file text) tree
      have hfree : tree.at? (absolute location) ≠ some .directory := entry?_eq_at? free ▸ free
      by_cases hsame : after.at? (absolute location) =
          (tree.put location (.file text)).at? (absolute location)
      · exact .file (rest.locate_eq (locate_put free leads)) rfl hfree (hsame.trans hput)
      · cases ih hsame with
        | file leads here _ has => exact .file leads here hfree has
        | directory _ _ _ had _ => simp [had] at hput
    · have hat := at?_put_of_ne hhere (.file text) tree
      exact (ih (hat ▸ hplace)).of_at?_eq hat rfl

end Writes

lemma mem_trailFrom_self (names : List String) (location : Location) :
    location ∈ trailFrom names location := by
  cases names with
  | nil => exact List.mem_cons_self
  | cons name rest =>
    rw [trailFrom]
    split
    · exact List.mem_cons_self
    · exact List.mem_cons_self

lemma writes_makeDirectoriesFrom (above : path.parent? = some parent) {names : List String}
    (hway : ∀ next ∈ trailFrom names location, next ∈ tree.trail parent) :
    Writes path tree (makeDirectoriesFrom names location tree).1 := by
  induction names generalizing location tree with
  | nil => exact .refl tree
  | cons name rest ih =>
    rw [makeDirectoriesFrom]
    cases hfollow : follow location name with
    | error fault => exact .refl tree
    | ok next =>
      have hrest : ∀ later ∈ trailFrom rest next, later ∈ tree.trail parent := by
        intro later hlater
        apply hway
        rw [trailFrom, hfollow]
        exact List.mem_cons_of_mem _ hlater
      dsimp only
      split
      · rename_i hmissing
        have hnext := hrest next (mem_trailFrom_self rest next)
        exact .directory above hnext hmissing (ih hrest)
      · exact ih hrest
      · exact .refl tree

lemma writes_makeDirectories (above : path.parent? = some parent) (tree : FileTree) :
    Writes path tree (tree.makeDirectories parent).1 := by
  unfold makeDirectories
  split
  · exact .refl tree
  · exact .refl tree
  · exact writes_makeDirectoriesFrom above fun next hnext => hnext

lemma writes_write (h : tree.write path text = .ok after) : Writes path tree after := by
  unfold write at h
  split at h
  · cases h
  · rename_i location hlocate
    split at h
    · cases h
    · rename_i hfree
      obtain rfl := Except.ok.inj h
      exact .file hlocate hfree (.refl _)

lemma pathFault?_eq_none (hchars : path.text.toList.all (·.toNat != 0)) (hempty : path.text ≠ "")
    (hlength : path.text.utf8ByteSize ≤ pathLimit) : pathFault? path = none := by
  have hnull : path.text.any (·.toNat == 0) = false := by
    rw [String.any, String.contains_bool_eq, List.any_eq_false]
    simpa using hchars
  rw [pathFault?, hnull, if_neg (by simp), if_neg (by simpa using hempty), if_neg (by omega)]

lemma locate_relative (hchars : path.text.toList.all (·.toNat != 0)) (hempty : path.text ≠ "")
    (hlength : path.text.utf8ByteSize ≤ pathLimit) (hrelative : path.isAbsolute = false)
    (tree : FileTree) : tree.locate path = tree.walk path.names tree.start := by
  rw [locate, pathFault?_eq_none hchars hempty hlength, origin, hrelative]
  rfl

end FileTree

end RecordMapping

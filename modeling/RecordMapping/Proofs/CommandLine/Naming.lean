import RecordMapping.CommandLine.Identifiers
import RecordMapping.CommandLine.Run
import RecordMapping.Proofs.CommandLine.Configurations
import RecordMapping.Proofs.Files.Joined

namespace RecordMapping

variable {tree start after : FileTree} {directory : FilePath} {name : String} {report : Report}

namespace Scaffold

lemma applyAll_cons {change : Change} {rest : List Change}
    (h : Change.applyAll tree (change :: rest) = (after, none)) :
    ∃ between, change.apply tree = (between, none) ∧
      Change.applyAll between rest = (after, none) := by
  unfold Change.applyAll at h
  split at h
  · exact ⟨_, by assumption, h⟩
  · cases h

lemma write_of_apply {path : FilePath} {text : String}
    (h : Change.apply tree (.file path text) = (after, none)) :
    tree.write path text = .ok after := by
  unfold Change.apply at h
  dsimp only at h
  split at h
  · rename_i hwrite
    cases h
    exact hwrite
  · cases h

lemma found_of_write {path : FilePath} {text : String} (h : tree.write path text = .ok after) :
    ∃ location, tree.locate path = .ok location ∧ after.locate path = .ok location ∧
      after.read path = .ok text := by
  have hread := FileTree.readIfAny_of_write h
  have hwrites := FileTree.writes_write h
  cases hlocate : tree.locate path with
  | error fault =>
    rw [FileTree.write, hlocate] at h
    cases h
  | ok location =>
    refine ⟨location, rfl, hwrites.locate_eq hlocate, ?_⟩
    unfold FileTree.readIfAny at hread
    split at hread
    · rename_i found hfound
      cases hread
      exact hfound
    · cases hread
    · cases hread

/-- A project that was made has all its files written, one after the other. -/
lemma exists_changes_of_make (h : make directory (some name) tree = (after, report))
    (hdone : report.failure = none) :
    ∃ start location, start.locate directory = .ok location ∧
      Change.applyAll start (changes directory name) = (after, none) := by
  unfold make at h
  dsimp only at h
  split at h
  · cases h
    cases hdone
  · rename_i start _
    split at h
    · cases h
      cases hdone
    · cases h
      cases hdone
    · rename_i location _ hlocate
      simp only [makeAt, Option.some_or] at h
      split at h
      · cases h
        cases hdone
      · split at h
        · cases h
          cases hdone
        · rename_i hchanges
          cases h
          exact ⟨start, location, hlocate, hchanges⟩

lemma text_join_ne (path : FilePath) (hpath : path.text ≠ "") :
    (directory.join path).text ≠ "" := by
  unfold FilePath.join
  split_ifs
  · exact hpath
  · simp [hpath]
  · simp

lemma read_config (hdirectory : directory.text ≠ "")
    (h : Change.applyAll start (changes directory name) = (after, none)) :
    ∃ place, after.locate (directory.join Project.configName) = .ok place ∧
      after.read (directory.join Project.configName) = .ok (config name) := by
  unfold changes at h
  obtain ⟨first, -, h⟩ := applyAll_cons h
  obtain ⟨second, -, h⟩ := applyAll_cons h
  obtain ⟨third, hconfig, h⟩ := applyAll_cons h
  obtain ⟨fourth, htype, h⟩ := applyAll_cons h
  obtain ⟨fifth, hrecords, h⟩ := applyAll_cons h
  obtain rfl : fifth = after := congrArg Prod.fst h
  obtain ⟨place, hplace, hlocate, hread⟩ := found_of_write (write_of_apply hconfig)
  obtain ⟨typePlace, htypePlace, -, -⟩ := found_of_write (write_of_apply htype)
  obtain ⟨recordsPlace, hrecordsPlace, -, -⟩ := found_of_write (write_of_apply hrecords)
  have hplaceEq : ∃ front, place = front ++ ["xentity.yaml"] := by
    obtain ⟨front, -, -, hwalk⟩ := FileTree.walk_join hdirectory rfl hplace
    exact ⟨front, FileTree.walk_proper (by decide) hwalk⟩
  have htypeEq : ∃ front, typePlace = front ++ ["movie.yaml"] := by
    obtain ⟨front, -, -, hwalk⟩ :=
      FileTree.walk_join (text_join_ne Project.typesName (by decide)) rfl htypePlace
    exact ⟨front, FileTree.walk_proper (by decide) hwalk⟩
  have hrecordsEq : ∃ front, recordsPlace = front ++ ["movies.json"] := by
    obtain ⟨front, -, -, hwalk⟩ := FileTree.walk_join hdirectory rfl hrecordsPlace
    refine ⟨front ++ ["data"], ?_⟩
    rw [List.append_assoc]
    exact FileTree.walk_proper (by decide) hwalk
  obtain ⟨front, rfl⟩ := hplaceEq
  obtain ⟨typeFront, rfl⟩ := htypeEq
  obtain ⟨recordsFront, rfl⟩ := hrecordsEq
  obtain ⟨hlocateType, hreadType⟩ := FileTree.read_write_of_ne hlocate hread htypePlace
    (write_of_apply htype) (FileTree.absolute_ne (by decide) (by decide))
  exact ⟨_, FileTree.read_write_of_ne hlocateType hreadType hrecordsPlace
    (write_of_apply hrecords) (FileTree.absolute_ne (by decide) (by decide))⟩

/-- A project that was made is loaded with what its configuration says. -/
theorem load_of_make (h : make directory (some name) tree = (after, report))
    (hdone : report.failure = none) :
    Project.load after directory =
      (Project.decodeText ProjectConfig.members.shape ProjectConfig.decode (config name)).map
        fun config => ⟨config, directory⟩ := by
  obtain ⟨start, location, hlocate, hchanges⟩ := exists_changes_of_make h hdone
  have hfault : FileTree.pathFault? directory = none := by
    unfold FileTree.locate at hlocate
    split at hlocate
    · cases hlocate
    · assumption
  have hdirectory : directory.text ≠ "" := by
    unfold FileTree.pathFault? at hfault
    split_ifs at hfault with _ hempty
    simpa using hempty
  obtain ⟨place, hplace, hread⟩ := read_config hdirectory hchanges
  obtain ⟨front, hfront, hentry, -⟩ := FileTree.walk_join hdirectory rfl hplace
  have hisDirectory : after.hasDirectory directory = true := by
    simp only [FileTree.hasDirectory, FileTree.look, FileTree.locate, hfault, hfront, hentry]
  have hhas : after.has (directory.join Project.configName) = true := by
    unfold FileTree.read at hread
    rw [FileTree.has]
    cases hlook : after.look (directory.join Project.configName) with
    | error fault =>
      rw [hlook] at hread
      cases hread
    | ok entry => rfl
  simp only [Project.load, hisDirectory, if_true, hhas, Bool.not_true, Bool.false_eq_true, if_false,
    Project.decodeFile, hread]
  cases Project.decodeText ProjectConfig.members.shape ProjectConfig.decode (config name) <;> rfl

end Scaffold

/-- A project that was made under a name is loaded with that name if and only if the name is a plain
line: since it is written without quotes, every other name is read as something else, or not at
all. -/
theorem Invocation.loads_named_iff {config path : String} {workspace after : Workspace}
    (h : (Invocation.mk config (.init path (some name))).run workspace = (after, report))
    (hdone : report.failure = none) :
    (∃ project, Project.load after.tree ⟨path⟩ = .ok project ∧ project.config.name = name) ↔
      Yaml.isPlainLine name.toList := by
  have hmake : Scaffold.make ⟨path⟩ (some name) workspace.tree = (after.tree, report) := by
    cases h
    rfl
  rw [Scaffold.load_of_make hmake hdone]
  constructor
  · rintro ⟨project, hload, hname⟩
    cases hdecoded : Project.decodeText ProjectConfig.members.shape ProjectConfig.decode
        (Scaffold.config name) with
    | error error =>
      rw [hdecoded] at hload
      cases hload
    | ok decoded =>
      rw [hdecoded] at hload
      cases hload
      exact Scaffold.isPlainLine_of_decodeText hdecoded hname
  · intro hplain
    rw [Scaffold.decodeText_config hplain]
    exact ⟨_, rfl, rfl⟩

namespace Scaffold

def emptyTree : FileTree := ⟨[], []⟩

lemma applyAll_emptyTree (first second third : String) :
    ∃ after, Change.applyAll emptyTree
      [.directory ⟨"./entity_types"⟩, .directory ⟨"./data"⟩, .file ⟨"./xentity.yaml"⟩ first,
        .file ⟨"./entity_types/movie.yaml"⟩ second, .file ⟨"./data/movies.json"⟩ third] =
      (after, none) := by
  have htypes : FileTree.pathFault? ⟨"./entity_types"⟩ = none :=
    FileTree.pathFault?_eq_none (by decide) (by decide) (by decide)
  have hdata : FileTree.pathFault? ⟨"./data"⟩ = none :=
    FileTree.pathFault?_eq_none (by decide) (by decide) (by decide)
  have hconfig : FileTree.pathFault? ⟨"./xentity.yaml"⟩ = none :=
    FileTree.pathFault?_eq_none (by decide) (by decide) (by decide)
  have htype : FileTree.pathFault? ⟨"./entity_types/movie.yaml"⟩ = none :=
    FileTree.pathFault?_eq_none (by decide) (by decide) (by decide)
  have hrecords : FileTree.pathFault? ⟨"./data/movies.json"⟩ = none :=
    FileTree.pathFault?_eq_none (by decide) (by decide) (by decide)
  simp only [Change.applyAll, Change.apply, FileTree.makeDirectories, FileTree.write,
    FileTree.locate, htypes, hdata, hconfig, htype, hrecords]
  exact ⟨_, rfl⟩

lemma make_emptyTree (name : String) : (make ⟨"."⟩ (some name) emptyTree).2.failure = none := by
  have hlocate : emptyTree.locate ⟨"."⟩ = .ok [] :=
    FileTree.locate_relative (by decide) (by decide) (by decide) (by decide) emptyTree
  have hlook : emptyTree.look ⟨"."⟩ = .ok .directory := by
    rw [FileTree.look, hlocate]
    rfl
  have hhas : emptyTree.has ⟨"."⟩ = true := by
    rw [FileTree.has, hlook]
    rfl
  have hfresh : emptyTree.has (FilePath.join ⟨"."⟩ Project.configName) = false := by
    rw [FileTree.has, FileTree.look,
      FileTree.locate_relative (by decide) (by decide) (by decide) (by decide)]
    rfl
  have hchanges : ∃ after, Change.applyAll emptyTree (changes ⟨"."⟩ name) = (after, none) :=
    applyAll_emptyTree (config name) exampleType exampleRecords
  obtain ⟨after, hafter⟩ := hchanges
  simp only [make, hhas, if_true, hlook, hlocate, makeAt, Option.some_or, hfresh,
    Bool.false_eq_true, if_false, hafter]
  rfl

end Scaffold

/-- What becomes of an empty directory, and is reported, when a project is made there. -/
def Invocation.madeUnder (name : String) : Workspace × Report :=
  (Invocation.mk "xentity.yaml" (.init "." (some name))).run
    ⟨Scaffold.emptyTree, ⟨fun number => s!"id-{number}", 0⟩⟩

/-- The name `Heat` is kept; with a subtitle after a colon it is not, though the project is made. -/
theorem Invocation.loads_named_iff_heat :
    ((madeUnder "Heat").2.failure = none ∧
      ∃ project, Project.load (madeUnder "Heat").1.tree ⟨"."⟩ = .ok project ∧
        project.config.name = "Heat") ∧
    ((madeUnder "Heat: a story").2.failure = none ∧
      ¬ ∃ project, Project.load (madeUnder "Heat: a story").1.tree ⟨"."⟩ = .ok project ∧
        project.config.name = "Heat: a story") := by
  have hheat : (madeUnder "Heat").2.failure = none := Scaffold.make_emptyTree "Heat"
  have hstory : (madeUnder "Heat: a story").2.failure = none :=
    Scaffold.make_emptyTree "Heat: a story"
  have hiff := loads_named_iff (Eq.refl (madeUnder "Heat")) hheat
  have hiffStory := loads_named_iff (Eq.refl (madeUnder "Heat: a story")) hstory
  exact ⟨⟨hheat, hiff.mpr (by decide)⟩, hstory,
    fun hloads => absurd (hiffStory.mp hloads) (by decide)⟩

end RecordMapping

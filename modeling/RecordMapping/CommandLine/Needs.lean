import RecordMapping.CommandLine.Arguments
import RecordMapping.Project.Project

/-!
# Files that a command needs

The paths that a command may look at are known step by step: the configuration leads to the
directory of entity types, its files to the files of their stores.
-/

namespace RecordMapping

namespace Project

/-- The paths that making a project in a directory may look at. -/
def freshPaths (directory : FilePath) : List FilePath :=
  [directory, directory.join configName, directory.join typesName,
    directory.join ⟨"entity_types/movie.yaml"⟩, directory.join ⟨"data/movies.json"⟩]

def storagePath (base : FilePath) : StorageConfig → FilePath
  | .file storage => base.join ⟨storage.path⟩

/-- The paths that a project may look at, as far as a tree tells. -/
def paths (tree : FileTree) (config : FilePath) : List FilePath :=
  let opening := [config, config.join configName]
  match load tree config with
  | .error _ => opening
  | .ok project =>
    let files := match project.typeFiles tree with
      | .ok files => files
      | .error _ => []
    let stores := match project.types tree with
      | .ok types => types.filterMap fun type => type.storage.map (storagePath project.base)
      | .error _ => []
    opening ++ project.base.join typesName :: files ++ stores

end Project

namespace Command

def paths : Command → List FilePath
  | .init path _ => Project.freshPaths ⟨path⟩
  | .extract _ (some input) => [⟨input⟩]
  | .create _ input _ => [⟨input⟩]
  | _ => []

end Command

namespace Invocation

/-- The paths that an invocation may look at, as far as a tree tells. -/
def paths (tree : FileTree) (invocation : Invocation) : List FilePath :=
  invocation.command.paths ++ Project.paths tree ⟨invocation.config⟩

/-- How often the needed files lead to others: the configuration, the directory of entity types,
its files, the files of stores. -/
def rounds : Nat := 4

end Invocation

end RecordMapping

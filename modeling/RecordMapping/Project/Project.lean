import RecordMapping.Definition.Projects
import RecordMapping.Mapping.Values
import RecordMapping.Store.RecordStore
import RecordMapping.Yaml.Reading

/-!
# Projects

A project is a directory with a configuration file and a directory of entity types, one file each.
Entity types are taken in the order of the names of their files, and no two may share an id.
-/

namespace RecordMapping

/-- Why a project cannot be used. -/
inductive ProjectError where
  | notFound (path : String)
  | malformed
  | repeatedType (id path : String)
  | noStorage (id : String)
  | unknownType (id : String)
  | store (error : StoreError)
  | file (fault : FileFault)
  deriving DecidableEq

namespace ProjectError

def message : ProjectError → String
  | .notFound path => s!"configuration file not found: {path}"
  | .malformed => "failed to parse configuration"
  | .repeatedType id path =>
    s!"invalid configuration: entity type '{id}' is defined more than once ({path})"
  | .noStorage id => s!"invalid configuration: entity type '{id}' has no storage configured"
  | .unknownType id => (MapperError.unknownEntityType id).message
  | .store error => error.message
  | .file _ => "IO error"

end ProjectError

/-- A project and the directory that its paths start from. -/
structure Project where
  config : ProjectConfig
  base : FilePath

namespace Project

def configName : FilePath := ⟨"xentity.yaml"⟩

def typesName : FilePath := ⟨"entity_types"⟩

def decodeText {α : Type} (shape : Shape) (decode : Datum → Decoded α) (text : String) :
    Except ProjectError α :=
  match Yaml.read? shape text with
  | none => .error .malformed
  | some datum =>
    match decode datum with
    | .ok value => .ok value
    | .error _ => .error .malformed

def decodeFile {α : Type} (shape : Shape) (decode : Datum → Decoded α) (tree : FileTree)
    (path : FilePath) : Except ProjectError α :=
  match tree.read path with
  | .error fault => .error (.file fault)
  | .ok text => decodeText shape decode text

/-- The project of a directory or of a configuration file. -/
def load (tree : FileTree) (path : FilePath) : Except ProjectError Project :=
  let isDirectory := tree.hasDirectory path
  let configPath := if isDirectory then path.join configName else path
  let base := if isDirectory then path else path.parent?.getD ⟨"."⟩
  if !tree.has configPath then .error (.notFound configPath.text)
  else match decodeFile ProjectConfig.members.shape ProjectConfig.decode tree configPath with
    | .error error => .error error
    | .ok config => .ok ⟨config, base⟩

/-- The paths of the files of entity types, in order. -/
def typeFiles (tree : FileTree) (project : Project) : Except ProjectError (List FilePath) :=
  let directory := project.base.join typesName
  if !tree.has directory then .ok []
  else match tree.list directory with
    | .error fault => .error (.file fault)
    | .ok names =>
      let files := names.filter fun name =>
        let extension := (FilePath.mk name).extension?
        extension == some "yaml" || extension == some "yml"
      .ok ((files.mergeSort fun a b => a ≤ b).map fun name => directory.join ⟨name⟩)

/-- The entity types of files, after others that were read before them. -/
def readTypes (tree : FileTree) : List EntityTypeConfig → List FilePath →
    Except ProjectError (List EntityTypeConfig)
  | earlier, [] => .ok earlier
  | earlier, path :: rest =>
    match decodeFile EntityTypeConfig.members.shape EntityTypeConfig.decode tree path with
    | .error error => .error error
    | .ok type =>
      if earlier.any (·.id == type.id) then .error (.repeatedType type.id path.text)
      else readTypes tree (earlier ++ [type]) rest

def types (tree : FileTree) (project : Project) : Except ProjectError (List EntityTypeConfig) :=
  match project.typeFiles tree with
  | .error error => .error error
  | .ok paths => readTypes tree [] paths

def type (tree : FileTree) (project : Project) (id : String) :
    Except ProjectError EntityTypeConfig :=
  match project.types tree with
  | .error error => .error error
  | .ok types =>
    match types.find? (·.id == id) with
    | none => .error (.unknownType id)
    | some type => .ok type

def mapper (project : Project) (type : EntityTypeConfig) : Except MapperError Mapper :=
  Mapper.build type.id (type.mapperConfig project.config.dialect) (.ofTypes [type])
    Catalog.standard

def openStore (tree : FileTree) (project : Project) (type : EntityTypeConfig) :
    Except ProjectError RecordStore :=
  match type.storage with
  | none => .error (.noStorage type.id)
  | some config =>
    match RecordStore.openConfig tree project.base config with
    | .error error => .error (.store error)
    | .ok store => .ok store

end Project

end RecordMapping

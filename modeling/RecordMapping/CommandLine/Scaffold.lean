import RecordMapping.CommandLine.Report
import RecordMapping.Project.Project

namespace RecordMapping

namespace Scaffold

/-- Lines as text; every line is ended. -/
def textOf (lines : List String) : String := String.join (lines.map fun line => line ++ "\n")

def config (name : String) : String :=
  textOf
    ["# xentity project configuration",
      "name: " ++ name,
      "version: \"0.1.0\"",
      "",
      "# Expression dialect for entity types that do not set one: simple | jsonpath",
      "default_dialect: simple",
      "",
      "vars:",
      "  environment: development"]

def exampleType : String :=
  textOf
    ["# Example external entity type",
      "id: movie",
      "label: Movie",
      "",
      "# Fields in addition to the base fields id, uuid, title and annotation",
      "fields:",
      "  released:",
      "    type: datetime",
      "    datetime_type: date",
      "  rating:",
      "    type: integer",
      "  genres:",
      "    type: entity_reference",
      "    cardinality: -1",
      "  source:",
      "    type: string",
      "",
      "field_mapper:",
      "  # Mappings starting with this prefix are constants",
      "  constant_prefix: \"+\"",
      "  field_mappings:",
      "    id:",
      "      value: uuid",
      "    uuid:",
      "      value: uuid",
      "    title:",
      "      value: title",
      "    released:",
      "      value: dates/released",
      "    rating:",
      "      value: stats/rating",
      "    genres:",
      "      target_id: \"genres/*/id\"",
      "    source:",
      "      value: \"+sample data\"",
      "",
      "storage:",
      "  type: file",
      "  path: data/movies.json",
      "  id_key: uuid"]

def exampleRecords : String :=
  textOf
    ["[",
      "  \x7b",
      "    \"uuid\": \"5b0c7f6e-8f2a-4c43-9a0e-0d2a4f2b7a01\",",
      "    \"title\": \"Alien\",",
      "    \"dates\": \x7b\"released\": \"1979-05-25T00:00:00Z\"\x7d,",
      "    \"stats\": \x7b\"rating\": \"8\"\x7d,",
      "    \"genres\": [\x7b\"id\": \"scifi\"\x7d, \x7b\"id\": \"horror\"\x7d]",
      "  \x7d,",
      "  \x7b",
      "    \"uuid\": \"8d51a1c2-3f4e-4b6a-8c7d-1e2f3a4b5c02\",",
      "    \"title\": \"Heat\",",
      "    \"dates\": \x7b\"released\": \"1995-12-15\"\x7d,",
      "    \"stats\": \x7b\"rating\": 8\x7d,",
      "    \"genres\": [\x7b\"id\": \"crime\"\x7d]",
      "  \x7d,",
      "  \x7b",
      "    \"uuid\": \"c3e9b7d4-6a5f-4e8b-9d0c-2f1e3a4b5c03\",",
      "    \"title\": \"Arrival\",",
      "    \"dates\": \x7b\"released\": \"11/11/2016\"\x7d,",
      "    \"genres\": []",
      "  \x7d",
      "]"]

inductive Change where
  | directory (path : FilePath)
  | file (path : FilePath) (text : String)

namespace Change

/-- The tree after a change, as far as it could be made, and what stood in the way. -/
def apply (tree : FileTree) : Change → FileTree × Option FileFault
  | .directory path => tree.makeDirectories path
  | .file path text =>
    match tree.write path text with
    | .ok tree => (tree, none)
    | .error fault => (tree, some fault)

/-- The tree after changes up to the first one that fails. -/
def applyAll (tree : FileTree) : List Change → FileTree × Option FileFault
  | [] => (tree, none)
  | change :: rest =>
    match change.apply tree with
    | (tree, none) => applyAll tree rest
    | (tree, some fault) => (tree, some fault)

end Change

/-- The changes that make a project of a name in a directory. -/
def changes (directory : FilePath) (name : String) : List Change :=
  let types := directory.join Project.typesName
  [.directory types, .directory (directory.join ⟨"data"⟩),
    .file (directory.join Project.configName) (config name),
    .file (types.join ⟨"movie.yaml"⟩) exampleType,
    .file (directory.join ⟨"data/movies.json"⟩) exampleRecords]

/-- What is said before a project is made. -/
def announcement (name : String) : Event := .info ("Creating new xentity project: " ++ name)

/-- What is said after a project was made. -/
def instructions (directory : FilePath) (name : String) (location : Location) : List Event :=
  let next :=
    if directory.text = "." then [] else ["  cd " ++ directory.text]
  (["✓ Created project '" ++ name ++ "' at " ++ (FileTree.absolute location).text, "",
      "Next steps:"] ++ next ++
    ["  xentity validate                       # Check field mappings",
      "  xentity extract --entity-type movie    # Map stored records"]).map Event.info

/-- Makes a project at a location, unless there is one. -/
def makeAt (directory : FilePath) (name? : Option String) (location : Location)
    (tree : FileTree) : FileTree × Report :=
  match name?.or location.getLast? with
  | none => (tree, .failed [] ["Could not determine project name from path"])
  | some name =>
    if tree.has (directory.join Project.configName) then
      (tree, .failed [] [s!"Directory '{directory.text}' already contains a xentity.yaml"])
    else match Change.applyAll tree (changes directory name) with
      | (tree, some fault) => (tree, .failed [announcement name] [fault.message])
      | (tree, none) =>
        (tree, .done [] (announcement name :: instructions directory name location))

/-- Makes a project in a directory, which is made if it is missing. It is named after the directory
unless a name is given. -/
def make (directory : FilePath) (name? : Option String) (tree : FileTree) :
    FileTree × Report :=
  let made := if tree.has directory then (tree, none) else tree.makeDirectories directory
  match made with
  | (tree, some fault) => (tree, .failed [] [fault.message])
  | (tree, none) =>
    match tree.look directory, tree.locate directory with
    | .error fault, _ => (tree, .failed [] [fault.message])
    | _, .error fault => (tree, .failed [] [fault.message])
    | .ok _, .ok location => makeAt directory name? location tree

end Scaffold

end RecordMapping

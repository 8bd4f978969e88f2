import RecordMapping.CommandLine.Arguments
import RecordMapping.CommandLine.Documents
import RecordMapping.CommandLine.Scaffold

/-!
# Running commands

Commands work on a tree of files and report. Only `init` and a saving `create` change the tree; all
other commands are functions of it. A document that fails is counted and skipped.
-/

namespace RecordMapping

/-- A project narrowed to one entity type. -/
structure TypeContext where
  project : Project
  type : EntityTypeConfig
  mapper : Mapper

structure Workspace where
  tree : FileTree
  supply : IdSupply

namespace Run

/-- The project at a path, or the causes of its failure. -/
def loadProject (tree : FileTree) (config : String) : Except (List String) Project :=
  match Project.load tree ⟨config⟩ with
  | .ok project => .ok project
  | .error error => .error ["Failed to load configuration", error.message]

/-- The entity types of a project, or the causes of the failure. -/
def loadTypes (tree : FileTree) (project : Project) :
    Except (List String) (List EntityTypeConfig) :=
  match project.types tree with
  | .ok types => .ok types
  | .error error => .error ["Failed to load entity types", error.message]

/-- The project at a path narrowed to an entity type, or the causes of the failure. -/
def loadContext (tree : FileTree) (config entityType : String) :
    Except (List String) TypeContext :=
  match loadProject tree config with
  | .error causes => .error causes
  | .ok project =>
    match project.type tree entityType with
    | .error error => .error ["Failed to load entity type", error.message]
    | .ok type =>
      match project.mapper type with
      | .error error => .error [s!"Invalid field mapping for '{type.id}'", error.message]
      | .ok mapper => .ok ⟨project, type, mapper⟩

/-- The store of an entity type, or the causes of the failure. -/
def openStore (tree : FileTree) (context : TypeContext) : Except (List String) RecordStore :=
  match context.project.openStore tree context.type with
  | .ok store => .ok store
  | .error error => .error ["Failed to open storage", error.message]

def validateType (project : Project) (type : EntityTypeConfig) : List Event × Bool :=
  let storage : List Event :=
    if type.storage.isNone then
      [⟨.warning, s!"Entity type '{type.id}' has no storage configured", []⟩]
    else []
  match project.mapper type with
  | .ok mapper =>
    let mapped := mapper.mappings.entries.length
    (.info s!"✓ Entity type '{type.id}': {mapper.dialect.id} dialect, {mapped} mapped fields" ::
      storage, true)
  | .error error =>
    (⟨.error, s!"✗ Entity type '{type.id}': {error.message}", []⟩ :: storage, false)

def validate (tree : FileTree) (config : String) : Report :=
  let opening := Event.info ("Validating configuration: " ++ config)
  match loadProject tree config with
  | .error causes => .failed [opening] causes
  | .ok project =>
    let heading := [opening, .info ("✓ Project: " ++ project.config.name),
      .info ("✓ Version: " ++ project.config.version)]
    match loadTypes tree project with
    | .error causes => .failed heading causes
    | .ok types =>
      let verdicts := types.map (validateType project)
      let log := heading ++ verdicts.flatMap Prod.fst
      let failed := (verdicts.filter fun verdict => !verdict.2).length
      if failed = 0 then .done [] (log ++ [.info "✓ Configuration is valid"])
      else .failed log [s!"{failed} of {types.length} entity types failed validation"]

/-- The number of stored records, or why it cannot be told. -/
def recordCount (tree : FileTree) (project : Project) (type : EntityTypeConfig) : String :=
  match project.openStore tree type with
  | .ok store => toString (store.count [])
  | .error error => s!"unavailable ({error.message})"

/-- The storage of an entity type in words. -/
def storageText : Option StorageConfig → String
  | none => "none"
  | some (.file storage) => "file " ++ storage.path

def statusOf (tree : FileTree) (project : Project) (type : EntityTypeConfig) : List String :=
  let dialect := type.mapper.dialect.getD project.config.dialect
  ["", s!"  {type.id} ({type.title})", s!"    dialect:   {dialect.id}",
    s!"    read-only: {type.readOnly}", s!"    storage:   {storageText type.storage}",
    s!"    records:   {recordCount tree project type}"]

def status (tree : FileTree) (config : String) : Report :=
  match loadProject tree config with
  | .error causes => .failed [] causes
  | .ok project =>
    match loadTypes tree project with
    | .error causes => .failed [] causes
    | .ok types =>
      let heading := [s!"Project:  {project.config.name} {project.config.version}",
        s!"Path:     {project.base.text}", s!"Dialect:  {project.config.dialect.id} (default)",
        s!"Entity types: {types.length}"]
      .done (heading ++ types.flatMap (statusOf tree project)) []

def titleOf (values : EntityValues) : String :=
  let found := do
    let deltas ← Dictionary.find? "title" values
    let delta ← deltas.head?
    Dictionary.find? "value" delta
  match found with
  | some (.string title) => title
  | _ => ""

def listLine (mapper : Mapper) (record : Json) : String :=
  (mapper.extractId record).getD "-" ++ "\t" ++ titleOf (mapper.extract record)

def list (tree : FileTree) (config entityType : String) (limit : Option Nat) (offset : Nat) :
    Report :=
  match loadContext tree config entityType with
  | .error causes => .failed [] causes
  | .ok context =>
    match openStore tree context with
    | .error causes => .failed [] causes
    | .ok store =>
      let records := store.query (.page offset limit)
      .done (records.map (listLine context.mapper))
        [.info s!"Listed {records.length} of {store.count []} records"]

/-- The identifier and the entity values of a record as one value. -/
def extracted (mapper : Mapper) (record : Json) : Json :=
  .object [("id", encodeOptional .string (mapper.extractId record)),
    (valuesMember, EntityValues.encode (mapper.extract record))]

def isObject : Json → Bool
  | .object _ => true
  | _ => false

/-- The outcome of one record: a line of output, or an event. -/
def extractOne (mapper : Mapper) (position : Nat) (record : Json) : Except Event String :=
  if isObject record then .ok (extracted mapper record).toText
  else .error ⟨.warning, "skipping record that is not an object", [("record", toString position)]⟩

def outputs (outcomes : List (Except Event String)) : List String :=
  outcomes.filterMap fun outcome => match outcome with
    | .ok line => some line
    | .error _ => none

def events (outcomes : List (Except Event String)) : List Event :=
  outcomes.filterMap fun outcome => match outcome with
    | .ok _ => none
    | .error event => some event

/-- The report of all outcomes, under a word for what was done. -/
def summary (verb entityType : String) (outcomes : List (Except Event String)) : Report :=
  let done := outputs outcomes
  let failed := events outcomes
  let closing := s!"{verb} {done.length} {entityType} records ({failed.length} failed)"
  .done done (failed ++ [.info closing])

/-- The outcomes of items, whose positions are counted from a number on. -/
def outcomesFrom (outcome : Nat → Json → Except Event String) :
    Nat → List Json → List (Except Event String)
  | _, [] => []
  | position, item :: rest => outcome position item :: outcomesFrom outcome (position + 1) rest

/-- The records to extract from: those of a file, or else the stored ones. -/
def extractInput (tree : FileTree) (context : TypeContext) :
    Option String → Except (List String) (List Json)
  | some path =>
    match readDocuments tree path with
    | .ok records => .ok records
    | .error fault => .error [fault.message]
  | none =>
    match openStore tree context with
    | .ok store => .ok (store.query .all)
    | .error causes => .error causes

def extract (tree : FileTree) (config entityType : String) (input : Option String) : Report :=
  match loadContext tree config entityType with
  | .error causes => .failed [] causes
  | .ok context =>
    match extractInput tree context input with
    | .error causes => .failed [] causes
    | .ok records =>
      summary "Extracted" context.type.id (outcomesFrom (extractOne context.mapper) 1 records)

/-- An event about a document that was skipped. -/
def skipped (position : Nat) (message error : String) : Event :=
  ⟨.warning, message, [("record", toString position), ("error", error)]⟩

/-- The raw document of a document of entity values. -/
def createOne (mapper : Mapper) (position : Nat) (document : Json) : Except Event Json :=
  match entityValues document with
  | .error fault =>
    .error (skipped position "skipping malformed entity values" fault.message)
  | .ok values =>
    match mapper.create values with
    | .error error => .error (skipped position "failed to create raw data" error.message)
    | .ok raw => .ok raw

def printOne (mapper : Mapper) (position : Nat) (document : Json) : Except Event String :=
  (createOne mapper position document).map Json.toText

/-- Saves one document, if its raw document can be created. -/
def saveOne (mapper : Mapper) (position : Nat) (document : Json) (state : RecordStore.State) :
    RecordStore.State × Except Event String :=
  match createOne mapper position document with
  | .error event => (state, .error event)
  | .ok raw =>
    match state.save raw with
    | (state, .ok id) => (state, .ok id)
    | (state, .error error) =>
      (state, .error (skipped position "failed to save record" error.message))

/-- Saves documents, whose positions are counted from a number on. -/
def saveFrom (mapper : Mapper) : Nat → List Json → RecordStore.State →
    RecordStore.State × List (Except Event String)
  | _, [], state => (state, [])
  | position, document :: rest, state =>
    let (state, outcome) := saveOne mapper position document state
    let (state, outcomes) := saveFrom mapper (position + 1) rest state
    (state, outcome :: outcomes)

def createPrinting (tree : FileTree) (config entityType input : String) : Report :=
  match loadContext tree config entityType with
  | .error causes => .failed [] causes
  | .ok context =>
    match readDocuments tree input with
    | .error fault => .failed [] [fault.message]
    | .ok documents =>
      summary "Created" context.type.id (outcomesFrom (printOne context.mapper) 1 documents)

def createSaving (workspace : Workspace) (config entityType input : String) :
    Workspace × Report :=
  match loadContext workspace.tree config entityType with
  | .error causes => (workspace, .failed [] causes)
  | .ok context =>
    if context.type.readOnly then
      (workspace, .failed [] [s!"Entity type '{context.type.id}' is read-only"])
    else match openStore workspace.tree context with
      | .error causes => (workspace, .failed [] causes)
      | .ok store =>
        match readDocuments workspace.tree input with
        | .error fault => (workspace, .failed [] [fault.message])
        | .ok documents =>
          let (state, outcomes) :=
            saveFrom context.mapper 1 documents ⟨workspace.tree, workspace.supply, store⟩
          (⟨state.tree, state.supply⟩, summary "Created" context.type.id outcomes)

end Run

namespace Invocation

def run (invocation : Invocation) (workspace : Workspace) : Workspace × Report :=
  let config := invocation.config
  match invocation.command with
  | .init path name =>
    let (tree, report) := Scaffold.make ⟨path⟩ name workspace.tree
    ({ workspace with tree := tree }, report)
  | .validate => (workspace, Run.validate workspace.tree config)
  | .status => (workspace, Run.status workspace.tree config)
  | .list entityType limit offset =>
    (workspace, Run.list workspace.tree config entityType limit offset)
  | .extract entityType input => (workspace, Run.extract workspace.tree config entityType input)
  | .create entityType input false =>
    (workspace, Run.createPrinting workspace.tree config entityType input)
  | .create entityType input true => Run.createSaving workspace config entityType input

/-- The path of the project unless another is given. -/
def defaultConfig : String := Project.configName.text

end Invocation

end RecordMapping

import RecordMapping.Files.Tree
import RecordMapping.Store.Config
import RecordMapping.Store.Records

/-!
# Stores

A store keeps the records of one file in memory and writes the whole file after each change. Changes
are made in memory first and stay when the file cannot be written.
-/

namespace RecordMapping

inductive StoreError where
  | badFile (store : String) (fault : RecordTextFault)
  | notObject (store : String)
  | unknownRecord (id : String)
  | file (fault : FileFault)
  deriving DecidableEq

namespace StoreError

def message : StoreError → String
  | .badFile store fault => s!"storage '{store}' error: " ++ fault.message
  | .notObject store => s!"storage '{store}' error: only objects can be saved"
  | .unknownRecord id => s!"record '{id}' not found"
  | .file _ => "IO error"

end StoreError

/-- Identifiers to give to records that have none, and how many were given. -/
structure IdSupply where
  name : Nat → String
  used : Nat

namespace IdSupply

def next (supply : IdSupply) : String := supply.name supply.used

/-- The supply after its next identifier was given. -/
def advance (supply : IdSupply) : IdSupply := { supply with used := supply.used + 1 }

end IdSupply

structure RecordStore where
  name : String
  path : FilePath
  format : RecordFormat
  idKey : String
  records : List Json

namespace RecordStore

/-- The store of a file, whose path is seen from a directory. A missing file holds no records. -/
def openFile (tree : FileTree) (base : FilePath) (config : FileStorage) :
    Except StoreError RecordStore :=
  let path := base.join ⟨config.path⟩
  let format := config.format.getD (.ofExtension path.extension?)
  let name := "file:" ++ config.path
  match tree.readIfAny path with
  | .error fault => .error (.file fault)
  | .ok none => .ok ⟨name, path, format, config.idKey, []⟩
  | .ok (some text) =>
    match format.read text.toList with
    | .error fault => .error (.badFile name fault)
    | .ok records => .ok ⟨name, path, format, config.idKey, records⟩

def openConfig (tree : FileTree) (base : FilePath) : StorageConfig → Except StoreError RecordStore
  | .file config => openFile tree base config

def load (store : RecordStore) (id : String) : Option Json :=
  Records.find? store.idKey id store.records

def loadAll (store : RecordStore) (ids : List String) : List Json :=
  Records.findAll store.idKey ids store.records

def query (store : RecordStore) (query : RecordQuery) : List Json := query.apply store.records

def count (store : RecordStore) (filters : List RecordFilter) : Nat :=
  (store.records.filter (RecordQuery.admits filters)).length

def fileText (store : RecordStore) : String := String.ofList (store.format.write store.records)

/-- The tree with the file of a store written, as far as it could be. -/
def persist (store : RecordStore) (tree : FileTree) : FileTree × Option FileFault :=
  let made := match store.path.parent? with
    | some parent => tree.makeDirectories parent
    | none => (tree, none)
  match made with
  | (tree, some fault) => (tree, some fault)
  | (tree, none) =>
    match tree.write store.path store.fileText with
    | .ok tree => (tree, none)
    | .error fault => (tree, some fault)

/-- Everything that changes stores. -/
structure State where
  tree : FileTree
  supply : IdSupply
  store : RecordStore

namespace State

/-- The state with other records, which are also written to the file. -/
def change (records : List Json) (supply : IdSupply) (state : State) : State × Option FileFault :=
  let store := { state.store with records := records }
  let (tree, fault?) := store.persist state.tree
  (⟨tree, supply, store⟩, fault?)

/-- Saves a record under its own identifier or a fresh one. -/
def save (record : Json) (state : State) : State × Except StoreError String :=
  let store := state.store
  let supply :=
    if (recordId store.idKey record).isSome then state.supply else state.supply.advance
  match Records.identify? store.idKey state.supply.next record with
  | none => (state, .error (.notObject store.name))
  | some (id, record) =>
    match state.change (Records.put store.idKey id record store.records) supply with
    | (state, none) => (state, .ok id)
    | (state, some fault) => (state, .error (.file fault))

def delete (id : String) (state : State) : State × Except StoreError Unit :=
  let store := state.store
  let kept := Records.remove store.idKey id store.records
  if kept.length = store.records.length then (state, .error (.unknownRecord id))
  else match state.change kept state.supply with
    | (state, none) => (state, .ok ())
    | (state, some fault) => (state, .error (.file fault))

end State

end RecordStore

end RecordMapping

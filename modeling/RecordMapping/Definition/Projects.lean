import RecordMapping.Definition.Mappings
import RecordMapping.Definition.Storage

/-!
# Definitions of projects and entity types

How projects and entity types are read, and how projects are written. The settings of a project have
no order of their own and may be written in any. The fields of an entity type keep their order and
repeated names.
-/

namespace RecordMapping

namespace ProjectConfig

/-- A project whose members are being read. -/
structure Draft where
  name : Option String
  version : String
  dialect : Dialect
  settings : Dictionary Json

def Draft.put (draft : Draft) (member : String) (datum : Datum) : Decoded (Option Draft) :=
  match member with
  | "name" => do return some { draft with name := some (← Decode.text datum) }
  | "version" => do return some { draft with version := ← Decode.text datum }
  | "default_dialect" => do return some { draft with dialect := ← Dialect.decode datum }
  | "vars" => do return some { draft with settings := ← Decode.dictionary Decode.value datum }
  | _ => .ok none

def members : Decode.Members :=
  [⟨"name", true, .text⟩, ⟨"version", false, .text⟩, ⟨"default_dialect", false, .variant⟩,
    ⟨"vars", false, .dictionary (.anything false)⟩]

def decode (datum : Datum) : Decoded ProjectConfig := do
  let start : Draft := ⟨none, defaultVersion, .simple, .empty⟩
  let draft ← Decode.draft false "ProjectConfig" members Draft.put start datum
  let name ← Decode.required "name" draft.name
  return ⟨name, draft.version, draft.dialect, draft.settings⟩

/-- What is written for a project when its settings are listed in some order. -/
def encodeListed (listed : List (String × Json)) (project : ProjectConfig) : Json :=
  .object
    [("name", .string project.name), ("version", .string project.version),
      ("default_dialect", project.dialect.encode), ("vars", Dictionary.encodeListed id listed)]

/-- What is written for a project with its settings in the order of their names, which is one of the
orders that they may come in. -/
def encode (project : ProjectConfig) : Json := project.encodeListed project.settings.entries

end ProjectConfig

namespace EntityTypeConfig

/-- What a text that is no mapping of fields should have been. -/
def fieldsExpected : String := "a map of field name to field definition"

/-- Reads the fields of an entity type; null stands for none. -/
def decodeFields : Datum → Decoded (List (String × FieldConfig))
  | .mapping entries => Decode.eachEntry FieldConfig.decode entries
  | .null => .ok []
  | datum => Decode.expected fieldsExpected datum

/-- An entity type whose members are being read. -/
structure Draft where
  id : Option String
  label : Option String
  readOnly : Bool
  fields : List (String × FieldConfig)
  mapper : MapperSection
  storage : Option StorageConfig

def Draft.put (draft : Draft) (member : String) (datum : Datum) : Decoded (Option Draft) :=
  match member with
  | "id" => do return some { draft with id := some (← Decode.text datum) }
  | "label" => do return some { draft with label := ← Decode.optional Decode.text datum }
  | "read_only" => do return some { draft with readOnly := ← Decode.bool datum }
  | "fields" => do return some { draft with fields := ← decodeFields datum }
  | "field_mapper" => do return some { draft with mapper := ← MapperSection.decode datum }
  | "storage" => do
    return some { draft with storage := ← Decode.optional StorageConfig.decode datum }
  | _ => .ok none

def members : Decode.Members :=
  [⟨"id", true, .text⟩, ⟨"label", false, .optional .text⟩, ⟨"read_only", false, .truth⟩,
    ⟨"fields", false, .entries FieldConfig.members.shape⟩,
    ⟨"field_mapper", false, MapperSection.members.shape⟩,
    ⟨"storage", false, .optional StorageConfig.shape⟩]

def decode (datum : Datum) : Decoded EntityTypeConfig := do
  let start : Draft := ⟨none, none, false, [], .default, none⟩
  let draft ← Decode.draft false "EntityTypeConfig" members Draft.put start datum
  let id ← Decode.required "id" draft.id
  return ⟨id, draft.label, draft.readOnly, draft.fields, draft.mapper, draft.storage⟩

end EntityTypeConfig

end RecordMapping

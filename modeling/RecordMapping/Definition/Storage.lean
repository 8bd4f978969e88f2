import RecordMapping.Definition.Fields
import RecordMapping.Store.Config
import RecordMapping.Store.Query

namespace RecordMapping

namespace RecordFormat

def decode (kept : Bool) (datum : Datum) : Decoded RecordFormat :=
  Decode.variant kept [(RecordFormat.list.id, .list), (RecordFormat.lines.id, .lines)] datum

def encode (format : RecordFormat) : Json := .string format.id

end RecordFormat

namespace FileStorage

/-- File storage whose members are being read. -/
structure Draft where
  path : Option String
  format : Option RecordFormat
  idKey : String

def Draft.put (kept : Bool) (draft : Draft) (member : String) (datum : Datum) :
    Decoded (Option Draft) :=
  match member with
  | "path" => do return some { draft with path := some (← Decode.text datum) }
  | "format" => do
    return some { draft with format := ← Decode.optional (RecordFormat.decode kept) datum }
  | "id_key" => do return some { draft with idKey := ← Decode.text datum }
  | _ => .ok none

def members : Decode.Members :=
  [⟨"path", true, .text⟩, ⟨"format", false, .optional .variant⟩, ⟨"id_key", false, .text⟩]

def decode (kept : Bool) (datum : Datum) : Decoded FileStorage := do
  let start : Draft := ⟨none, none, defaultIdKey⟩
  let draft ← Decode.draft kept "FileStorageConfig" members (Draft.put kept) start datum
  let path ← Decode.required "path" draft.path
  return ⟨path, draft.format, draft.idKey⟩

def encodeMembers (file : FileStorage) : List Member :=
  [("path", .string file.path), ("format", encodeOptional RecordFormat.encode file.format),
    ("id_key", .string file.idKey)]

def encode (file : FileStorage) : Json := .object file.encodeMembers

end FileStorage

namespace StorageConfig

def typeMember : String := "type"

def fileType : String := "file"

def decodeType : Datum → Decoded Unit
  | .string s => if s = fileType then .ok () else .error (.unknownVariant s [fileType])
  | datum => Decode.expected "variant identifier" datum

/-- The type that the members of storage name and the other members. -/
def splitType (type? : Option Unit) : List (Datum × Datum) →
    Decoded (Option Unit × List (Datum × Datum))
  | [] => .ok (type?, [])
  | (key, datum) :: rest =>
    if key.isText typeMember then
      if type?.isSome then .error (.duplicateField typeMember)
      else match decodeType datum with
        | .error fault => .error fault
        | .ok found => splitType (some found) rest
    else
      match splitType type? rest with
      | .error fault => .error fault
      | .ok (type?, others) => .ok (type?, (key, datum) :: others)

def shape : Shape := .kinded typeMember

/-- Reads storage. A sequence starts with the type. -/
def decode : Datum → Decoded StorageConfig
  | .mapping entries => do
    let (type?, others) ← splitType none entries
    let _ ← Decode.required typeMember type?
    return .file (← FileStorage.decode true (.mapping others))
  | .sequence [] => .error (.missingField typeMember)
  | .sequence (type :: others) => do
    decodeType type
    return .file (← FileStorage.decode true (.sequence others))
  | datum => Decode.expected "internally tagged enum StorageConfig" datum

def encode : StorageConfig → Json
  | .file storage => .object ((typeMember, .string fileType) :: storage.encodeMembers)

end StorageConfig

namespace Comparison

def id : Comparison → String
  | .equal => "eq"
  | .notEqual => "not_eq"
  | .contains => "contains"

def decode (datum : Datum) : Decoded Comparison :=
  Decode.variant false ([Comparison.equal, .notEqual, .contains].map fun c => (c.id, c)) datum

end Comparison

namespace RecordFilter

/-- A filter whose members are being read. -/
structure Draft where
  field : Option String
  comparison : Comparison
  value : Option Json

def Draft.put (draft : Draft) (member : String) (datum : Datum) : Decoded (Option Draft) :=
  match member with
  | "field" => do return some { draft with field := some (← Decode.text datum) }
  | "operator" => do return some { draft with comparison := ← Comparison.decode datum }
  | "value" => do return some { draft with value := some (← Decode.value datum) }
  | _ => .ok none

def members : Decode.Members :=
  [⟨"field", true, .text⟩, ⟨"operator", false, .variant⟩, ⟨"value", true, .anything false⟩]

def decode (datum : Datum) : Decoded RecordFilter := do
  let draft ← Decode.draft false "Filter" members Draft.put ⟨none, .equal, none⟩ datum
  let field ← Decode.required "field" draft.field
  let value ← Decode.required "value" draft.value
  return ⟨field, draft.comparison, value⟩

def encode (filter : RecordFilter) : Json :=
  .object
    [("field", .string filter.field), ("operator", .string filter.comparison.id),
      ("value", filter.value)]

end RecordFilter

namespace SortKey

/-- A sort key whose members are being read. -/
structure Draft where
  field : Option String
  descending : Bool

def Draft.put (draft : Draft) (member : String) (datum : Datum) : Decoded (Option Draft) :=
  match member with
  | "field" => do return some { draft with field := some (← Decode.text datum) }
  | "descending" => do return some { draft with descending := ← Decode.bool datum }
  | _ => .ok none

def members : Decode.Members := [⟨"field", true, .text⟩, ⟨"descending", false, .truth⟩]

def decode (datum : Datum) : Decoded SortKey := do
  let draft ← Decode.draft false "Sort" members Draft.put ⟨none, false⟩ datum
  let field ← Decode.required "field" draft.field
  return ⟨field, draft.descending⟩

def encode (key : SortKey) : Json :=
  .object [("field", .string key.field), ("descending", .bool key.descending)]

end SortKey

namespace RecordQuery

def put (query : RecordQuery) (member : String) (datum : Datum) : Decoded (Option RecordQuery) :=
  match member with
  | "filters" => do
    return some { query with filters := ← Decode.sequence RecordFilter.decode datum }
  | "sort" => do return some { query with sort := ← Decode.sequence SortKey.decode datum }
  | "offset" => do return some { query with offset := ← Decode.count datum }
  | "limit" => do return some { query with limit := ← Decode.optional Decode.count datum }
  | _ => .ok none

def members : Decode.Members :=
  [⟨"filters", false, .sequence RecordFilter.members.shape⟩,
    ⟨"sort", false, .sequence SortKey.members.shape⟩, ⟨"offset", false, .integer⟩,
    ⟨"limit", false, .optional .integer⟩]

def decode (datum : Datum) : Decoded RecordQuery :=
  Decode.draft false "Query" members put .all datum

def encode (query : RecordQuery) : Json :=
  .object
    [("filters", .list (query.filters.map RecordFilter.encode)),
      ("sort", .list (query.sort.map SortKey.encode)), ("offset", .ofInt query.offset),
      ("limit", encodeOptional (fun n : Nat => .ofInt n) query.limit)]

end RecordQuery

end RecordMapping

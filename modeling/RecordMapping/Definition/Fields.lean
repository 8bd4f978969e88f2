import RecordMapping.Definition.Read
import RecordMapping.Schema.Field

namespace RecordMapping

/-- A value written, with null for none. -/
def encodeOptional {α : Type} (write : α → Json) (value : Option α) : Json :=
  (value.map write).getD .null

namespace Dictionary

/-- What is written for values under names, in the order in which they are listed. -/
def encodeListed {α : Type} (write : α → Json) (listed : List (String × α)) : Json :=
  .object (listed.map fun entry => (entry.1, write entry.2))

def encode {α : Type} (write : α → Json) (d : Dictionary α) : Json :=
  encodeListed write d.entries

end Dictionary

namespace FieldType

def decode (datum : Datum) : Decoded FieldType :=
  Decode.variant false (all.map fun type => (type.id, type)) datum

end FieldType

namespace DateForm

def decode (datum : Datum) : Decoded DateForm :=
  Decode.variant false [(DateForm.date.id, .date), (DateForm.datetime.id, .datetime)] datum

def encode (form : DateForm) : Json := .string form.id

end DateForm

namespace Cardinality

def encode (cardinality : Cardinality) : Json := .ofInt cardinality.toInt

end Cardinality

namespace PropertyDefinition

/-- A property whose members are being read. -/
structure Draft where
  name : Option String
  dataType : Option String
  label : Option String
  readOnly : Bool

def Draft.put (draft : Draft) (member : String) (datum : Datum) : Decoded (Option Draft) :=
  match member with
  | "name" => do return some { draft with name := some (← Decode.text datum) }
  | "type" => do return some { draft with dataType := some (← Decode.text datum) }
  | "label" => do return some { draft with label := ← Decode.optional Decode.text datum }
  | "read_only" => do return some { draft with readOnly := ← Decode.bool datum }
  | _ => .ok none

def members : Decode.Members :=
  [⟨"name", true, .text⟩, ⟨"type", true, .text⟩, ⟨"label", false, .optional .text⟩,
    ⟨"read_only", false, .truth⟩]

def decode (datum : Datum) : Decoded PropertyDefinition := do
  let start : Draft := ⟨none, none, none, false⟩
  let draft ← Decode.draft false "PropertyDefinition" members Draft.put start datum
  let name ← Decode.required "name" draft.name
  let dataType ← Decode.required "type" draft.dataType
  return ⟨name, dataType, draft.label, draft.readOnly⟩

def encode (property : PropertyDefinition) : Json :=
  .object
    [("name", .string property.name), ("type", .string property.dataType),
      ("label", encodeOptional .string property.label), ("read_only", .bool property.readOnly)]

end PropertyDefinition

namespace FieldConfig

/-- A field whose members are being read. -/
structure Draft where
  fieldType : Option FieldType
  label : Option String
  cardinality : Cardinality
  required : Bool
  computed : Bool
  dateForm : DateForm
  properties : Option (List PropertyDefinition)

def Draft.put (draft : Draft) (member : String) (datum : Datum) : Decoded (Option Draft) :=
  match member with
  | "type" => do return some { draft with fieldType := some (← FieldType.decode datum) }
  | "label" => do return some { draft with label := ← Decode.optional Decode.text datum }
  | "cardinality" => do return some { draft with cardinality := ← Decode.cardinality datum }
  | "required" => do return some { draft with required := ← Decode.bool datum }
  | "computed" => do return some { draft with computed := ← Decode.bool datum }
  | "datetime_type" => do return some { draft with dateForm := ← DateForm.decode datum }
  | "properties" => do
    let properties ← Decode.optional (Decode.sequence PropertyDefinition.decode) datum
    return some { draft with properties := properties }
  | _ => .ok none

def members : Decode.Members :=
  [⟨"type", true, .variant⟩, ⟨"label", false, .optional .text⟩, ⟨"cardinality", false, .integer⟩,
    ⟨"required", false, .truth⟩, ⟨"computed", false, .truth⟩, ⟨"datetime_type", false, .variant⟩,
    ⟨"properties", false, .optional (.sequence PropertyDefinition.members.shape)⟩]

def decode (datum : Datum) : Decoded FieldConfig := do
  let start : Draft := ⟨none, none, .one, false, false, .datetime, none⟩
  let draft ← Decode.draft false "FieldConfig" members Draft.put start datum
  let fieldType ← Decode.required "type" draft.fieldType
  return ⟨fieldType, draft.label, draft.cardinality, draft.required, draft.computed,
    draft.dateForm, draft.properties⟩

def encode (config : FieldConfig) : Json :=
  .object
    [("type", .string config.fieldType.id), ("label", encodeOptional .string config.label),
      ("cardinality", config.cardinality.encode), ("required", .bool config.required),
      ("computed", .bool config.computed), ("datetime_type", config.dateForm.encode),
      ("properties",
        encodeOptional (fun ps => .list (ps.map PropertyDefinition.encode)) config.properties)]

end FieldConfig

end RecordMapping

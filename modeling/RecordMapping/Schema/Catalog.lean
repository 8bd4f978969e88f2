import RecordMapping.Schema.Field
import RecordMapping.Dictionary

namespace RecordMapping

inductive Primitive where
  | string
  | integer
  | float
  | boolean
  | uri
  deriving DecidableEq

namespace Primitive

def id : Primitive → String
  | .string => "string"
  | .integer => "integer"
  | .float => "float"
  | .boolean => "boolean"
  | .uri => "uri"

end Primitive

/-- How the values of a property are treated. -/
inductive PropertyKind where
  | primitive (primitive : Primitive)
  | dateTime
  | timestamp
  | reference
  | complex
  deriving DecidableEq

namespace PropertyKind

def isMappable : PropertyKind → Bool
  | .complex => false
  | _ => true

end PropertyKind

abbrev Catalog : Type := Dictionary PropertyKind

namespace Catalog

def standard : Catalog :=
  .ofList
    [("string", .primitive .string), ("email", .primitive .string),
      ("filter_format", .primitive .string), ("uri", .primitive .uri),
      ("integer", .primitive .integer), ("float", .primitive .float),
      ("decimal", .primitive .float), ("boolean", .primitive .boolean),
      ("datetime_iso8601", .dateTime), ("timestamp", .timestamp),
      ("entity_reference", .reference), ("language_reference", .reference),
      ("map", .complex), ("any", .complex), ("list", .complex)]

/-- Whether a property can be mapped: it is written, its data type is known and not structured. -/
def admits (catalog : Catalog) (property : PropertyDefinition) : Bool :=
  !property.readOnly && (catalog.find? property.dataType).any PropertyKind.isMappable

end Catalog

abbrev Schema : Type := Dictionary (List FieldDefinition)

end RecordMapping

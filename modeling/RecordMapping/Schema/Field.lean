import RecordMapping.Schema.Cardinality

/-!
# Fields

A field has a type, which decides its default properties and its main property. Every entity type
has four base fields; further ones are configured and may replace a base field.
-/

namespace RecordMapping

/-- How date and time properties are stored. -/
inductive DateForm where
  | date
  | datetime
  deriving DecidableEq

namespace DateForm

def id : DateForm → String
  | .date => "date"
  | .datetime => "datetime"

/-- The stored layout, in conversion specifications. -/
def specification : DateForm → String
  | .date => "%Y-%m-%d"
  | .datetime => "%Y-%m-%dT%H:%M:%S"

end DateForm

inductive FieldType where
  | string
  | stringLong
  | uuid
  | email
  | text
  | textLong
  | integer
  | float
  | decimal
  | boolean
  | datetime
  | timestamp
  | entityReference
  | link
  deriving DecidableEq

/-- A property of a field; its data type is a name in a catalog. -/
structure PropertyDefinition where
  name : String
  dataType : String
  label : Option String
  readOnly : Bool
  deriving DecidableEq

namespace PropertyDefinition

/-- A property that can be written, without label. -/
def plain (name dataType : String) : PropertyDefinition := ⟨name, dataType, none, false⟩

/-- A property that is computed and never written. -/
def computed (name dataType : String) : PropertyDefinition := ⟨name, dataType, none, true⟩

/-- The label, or else the name. -/
def title (property : PropertyDefinition) : String := property.label.getD property.name

end PropertyDefinition

namespace FieldType

/-- All types, in the order in which messages list them. -/
def all : List FieldType :=
  [.string, .stringLong, .uuid, .email, .text, .textLong, .integer, .float, .decimal, .boolean,
    .datetime, .timestamp, .entityReference, .link]

def id : FieldType → String
  | .string => "string"
  | .stringLong => "string_long"
  | .uuid => "uuid"
  | .email => "email"
  | .text => "text"
  | .textLong => "text_long"
  | .integer => "integer"
  | .float => "float"
  | .decimal => "decimal"
  | .boolean => "boolean"
  | .datetime => "datetime"
  | .timestamp => "timestamp"
  | .entityReference => "entity_reference"
  | .link => "link"

/-- The properties that a field of a type has unless others are configured. -/
def defaultProperties : FieldType → List PropertyDefinition
  | .string | .stringLong | .uuid => [.plain "value" "string"]
  | .email => [.plain "value" "email"]
  | .text | .textLong =>
    [.plain "value" "string", .plain "format" "filter_format", .computed "processed" "string"]
  | .integer => [.plain "value" "integer"]
  | .float => [.plain "value" "float"]
  | .decimal => [.plain "value" "decimal"]
  | .boolean => [.plain "value" "boolean"]
  | .datetime => [.plain "value" "datetime_iso8601", .computed "date" "any"]
  | .timestamp => [.plain "value" "timestamp"]
  | .entityReference =>
    [.plain "target_id" "entity_reference", .computed "entity" "entity_reference"]
  | .link => [.plain "uri" "uri", .plain "title" "string", .plain "options" "map"]

def mainProperty : FieldType → String
  | .entityReference => "target_id"
  | .link => "uri"
  | _ => "value"

end FieldType

/-- A field with everything decided. -/
structure FieldDefinition where
  name : String
  label : String
  fieldType : FieldType
  cardinality : Cardinality
  required : Bool
  computed : Bool
  dateForm : DateForm
  properties : List PropertyDefinition
  mainProperty : String
  deriving DecidableEq

namespace FieldDefinition

/-- A field of one value with the default properties of its type. -/
def base (name label : String) (fieldType : FieldType) : FieldDefinition :=
  ⟨name, label, fieldType, .one, false, false, .datetime, fieldType.defaultProperties,
    fieldType.mainProperty⟩

def property? (name : String) (field : FieldDefinition) : Option PropertyDefinition :=
  field.properties.find? (·.name == name)

end FieldDefinition

/-- The field that links an entity to what is stored about it here; it is never mapped. -/
def annotationField : String := "annotation"

def baseFields : List FieldDefinition :=
  [.base "id" "ID" .string, .base "uuid" "UUID" .uuid, .base "title" "Title" .string,
    .base annotationField "Annotation" .entityReference]

structure FieldConfig where
  fieldType : FieldType
  label : Option String
  cardinality : Cardinality
  required : Bool
  computed : Bool
  dateForm : DateForm
  properties : Option (List PropertyDefinition)
  deriving DecidableEq

namespace FieldConfig

/-- The field that a configuration defines under a name. -/
def define (name : String) (config : FieldConfig) : FieldDefinition :=
  ⟨name, config.label.getD name, config.fieldType, config.cardinality, config.required,
    config.computed, config.dateForm, config.properties.getD config.fieldType.defaultProperties,
    config.fieldType.mainProperty⟩

end FieldConfig

/-- The fields with one put in: in the place of the field of its name, or else last. -/
def putField (field : FieldDefinition) : List FieldDefinition → List FieldDefinition
  | [] => [field]
  | old :: rest => if old.name = field.name then field :: rest else old :: putField field rest

/-- The base fields and the configured ones; a configured field replaces an earlier one of its
name. -/
def mergeFields (configured : List (String × FieldConfig)) : List FieldDefinition :=
  configured.foldl (fun fields entry => putField (entry.2.define entry.1) fields) baseFields

end RecordMapping

import RecordMapping.Mapping.Table
import RecordMapping.Schema.Catalog

/-!
# Mappers

A mapper holds the fields of an entity type that can be mapped and their compiled mappings. It is
built only from a table whose expressions can all be read and in which every required field has its
main property mapped to raw data. Mappings of unknown fields and of properties that cannot be mapped
are left out.
-/

namespace RecordMapping

/-- Where the values of a mapped property come from. -/
inductive MappedSource where
  | constant (text : String)
  | path (expression : Expression)

structure MappedProperty where
  name : String
  kind : PropertyKind
  source : MappedSource

namespace MappedProperty

def expression? (property : MappedProperty) : Option Expression :=
  match property.source with
  | .path expression => some expression
  | .constant _ => none

def constant? (property : MappedProperty) : Option String :=
  match property.source with
  | .path _ => none
  | .constant text => some text

end MappedProperty

/-- A field with the properties that can be mapped and the ones that are. -/
structure MappedField where
  definition : FieldDefinition
  mappable : List PropertyDefinition
  mapped : List MappedProperty

namespace MappedField

def mapped? (name : String) (field : MappedField) : Option MappedProperty :=
  field.mapped.find? (·.name == name)

end MappedField

/-- Why the mappings of a field are refused. -/
inductive MappingFault where
  | expression (error : ExpressionError)
  | unmapped (label property : String)
  | constant (label : String)
  deriving DecidableEq

namespace MappingFault

def message : MappingFault → String
  | .expression error => error.message
  | .unmapped label property => s!"the {label} field requires a mapping for '{property}'"
  | .constant label => s!"the {label} field cannot be mapped to a constant value"

end MappingFault

/-- Why a mapper cannot be built. -/
inductive MapperError where
  | unknownEntityType (id : String)
  | invalidMapping (field : String) (fault : MappingFault)
  deriving DecidableEq

namespace MapperError

def message : MapperError → String
  | .unknownEntityType id => s!"unknown entity type '{id}'"
  | .invalidMapping field fault => s!"invalid mapping for field '{field}': " ++ fault.message

end MapperError

/-- A mapper of one entity type. -/
structure Mapper where
  entityType : String
  dialect : Dialect
  constantMark : Option String
  mappings : MappingTable
  fields : List MappedField

namespace Mapper

/-- The fields that can be mapped: neither computed nor the annotation. -/
def mappableFields (catalog : Catalog) (definitions : List FieldDefinition) : List MappedField :=
  (definitions.filter fun d => d.name != annotationField && !d.computed).map fun d =>
    ⟨d, d.properties.filter catalog.admits, []⟩

def compile (dialect : Dialect) (mark : Option String) (expression : String) :
    Except ExpressionError MappedSource :=
  match MappingSource.classify mark expression with
  | .constant text => .ok (.constant text)
  | .path source =>
    match Expression.parse dialect source with
    | .ok compiled => .ok (.path compiled)
    | .error error => .error error

/-- The compiled mappings of a field, in the order of the property names. -/
def compileEntries (catalog : Catalog) (dialect : Dialect) (mark : Option String)
    (mappable : List PropertyDefinition) :
    List (String × String) → Except ExpressionError (List MappedProperty)
  | [] => .ok []
  | (property, expression) :: rest =>
    match mappable.find? (·.name == property) with
    | none => compileEntries catalog dialect mark mappable rest
    | some definition =>
      match compile dialect mark expression with
      | .error error => .error error
      | .ok source =>
        match compileEntries catalog dialect mark mappable rest with
        | .error error => .error error
        | .ok others =>
          .ok (⟨property, (catalog.find? definition.dataType).getD .reference, source⟩ :: others)

def setMapped (name : String) (mapped : List MappedProperty) :
    List MappedField → List MappedField
  | [] => []
  | field :: rest =>
    if field.definition.name = name then { field with mapped := mapped } :: rest
    else field :: setMapped name mapped rest

/-- The fields with the mappings of a table compiled, in the order of the field names. -/
def compileTable (catalog : Catalog) (dialect : Dialect) (mark : Option String) :
    List (String × PropertyMappings) → List MappedField → Except MapperError (List MappedField)
  | [], fields => .ok fields
  | (name, mappings) :: rest, fields =>
    match fields.find? (·.definition.name == name) with
    | none => compileTable catalog dialect mark rest fields
    | some field =>
      match compileEntries catalog dialect mark field.mappable mappings.entries with
      | .error error => .error (.invalidMapping name (.expression error))
      | .ok mapped => compileTable catalog dialect mark rest (setMapped name mapped fields)

/-- Whether the main property of a field has to be mapped to raw data. -/
def isRequired (dialect : Dialect) (definition : FieldDefinition) : Bool :=
  definition.required || dialect.requiredFields.contains definition.name

/-- What is wrong with the main property of a required field. -/
def requiredFault? (mark : Option String) (table : MappingTable)
    (definition : FieldDefinition) : Option MappingFault :=
  match table.property? definition.name definition.mainProperty with
  | none => some (.unmapped definition.label definition.mainProperty)
  | some expression =>
    if (MappingSource.classify mark expression).isConstant then some (.constant definition.label)
    else none

def firstFault? (dialect : Dialect) (mark : Option String) (table : MappingTable) :
    List MappedField → Option MapperError
  | [] => none
  | field :: rest =>
    if isRequired dialect field.definition then
      match requiredFault? mark table field.definition with
      | some fault => some (.invalidMapping field.definition.name fault)
      | none => firstFault? dialect mark table rest
    else firstFault? dialect mark table rest

def build (entityType : String) (config : MapperConfig) (schema : Schema) (catalog : Catalog) :
    Except MapperError Mapper :=
  match Dictionary.find? entityType schema with
  | none => .error (.unknownEntityType entityType)
  | some definitions =>
    let table := config.mappings.withoutBlanks
    let mark := config.constantMark.filter fun m => !m.isEmpty
    match compileTable catalog config.dialect mark table.entries
        (mappableFields catalog definitions) with
    | .error error => .error error
    | .ok fields =>
      match firstFault? config.dialect mark table fields with
      | some error => .error error
      | none => .ok ⟨entityType, config.dialect, mark, table, fields⟩

def field? (name : String) (mapper : Mapper) : Option MappedField :=
  mapper.fields.find? (·.definition.name == name)

def mappableProperties (field : String) (mapper : Mapper) : List PropertyDefinition :=
  ((mapper.field? field).map MappedField.mappable).getD []

def requiredNames (mapper : Mapper) : List String :=
  (mapper.fields.filter fun f => isRequired mapper.dialect f.definition).map (·.definition.name)

end Mapper

end RecordMapping

import RecordMapping.Mapping.Mapper
import RecordMapping.Schema.Normalize

/-!
# Entity values

Extraction evaluates every mapped property and lines the values up by position: each position with a
value is one delta of the field. Creation takes the deltas apart again and writes the values of each
property through its expression into one document that all fields share.
-/

namespace RecordMapping

abbrev Delta : Type := Dictionary Json

abbrev EntityValues : Type := Dictionary (List Delta)

namespace Mapper

/-- The property whose empty values count as missing. -/
def referenceProperty : String := "target_id"

def idField : String := "id"

def isKept (property : String) (value : Json) : Bool :=
  !value.isNull && !(property == referenceProperty && value.isEmptyReference)

/-- Deltas with the values of one property put in by position; missing deltas are added. -/
def zipValues (property : String) : List Json → List Delta → List Delta
  | [], deltas => deltas
  | value :: values, [] =>
    let delta : Delta := .empty
    (if isKept property value then Dictionary.insert property value delta else delta) ::
      zipValues property values []
  | value :: values, delta :: deltas =>
    (if isKept property value then Dictionary.insert property value delta else delta) ::
      zipValues property values deltas

/-- The deltas found for the properties that are not constant, without empty ones. -/
def foundDeltas (mapped : List MappedProperty) (raw : Json) : List Delta :=
  let all := mapped.foldl
    (fun deltas property => match property.expression? with
      | some expression => zipValues property.name (expression.evaluate raw) deltas
      | none => deltas)
    []
  all.filter fun delta => !Dictionary.isEmpty delta

def constants (mapped : List MappedProperty) : List (String × String) :=
  mapped.filterMap fun property => property.constant?.map fun text => (property.name, text)

/-- Every delta with the constants put in; without deltas there is one of constants only. -/
def overlay (constants : List (String × String)) (deltas : List Delta) : List Delta :=
  if constants.isEmpty then deltas
  else
    let deltas := if deltas.isEmpty then [Dictionary.empty] else deltas
    deltas.map fun delta =>
      constants.foldl (fun d entry => Dictionary.insert entry.1 (.string entry.2) d) delta

def normalizeDelta (field : MappedField) (delta : Delta) : Delta :=
  Dictionary.map (fun name value =>
    match field.mapped? name with
    | some property => normalize property.kind field.definition.dateForm value
    | none => value) delta

def extractField (field : MappedField) (raw : Json) : List Delta :=
  (overlay (constants field.mapped) (foundDeltas field.mapped raw)).map (normalizeDelta field)

/-- The values of all fields in a document; fields without deltas are left out. -/
def extract (mapper : Mapper) (raw : Json) : EntityValues :=
  mapper.fields.foldl
    (fun values field =>
      let deltas := extractField field raw
      if deltas.isEmpty then values
      else Dictionary.insert field.definition.name deltas values)
    .empty

/-- The identifier of a document: the first value found for the main property of the id field. -/
def extractId (mapper : Mapper) (raw : Json) : Option String := do
  let field ← mapper.field? idField
  let property ← field.mapped? field.definition.mainProperty
  let expression ← property.expression?
  (← (expression.evaluate raw).head?).identifier?

/-- The document with the values of mapped properties written into it. -/
def writeProperties (cardinality : Cardinality) (deltas : List Delta) :
    List MappedProperty → Json → Except InjectError Json
  | [], raw => .ok raw
  | property :: rest, raw =>
    match property.expression? with
    | none => writeProperties cardinality deltas rest raw
    | some expression =>
      let values := deltas.filterMap (Dictionary.find? property.name)
      if values.isEmpty then writeProperties cardinality deltas rest raw
      else match expression.inject values cardinality raw with
        | .ok raw => writeProperties cardinality deltas rest raw
        | .error error => .error error

/-- The document with the values of fields written into it, in the order of the field names. -/
def writeFields (mapper : Mapper) : List (String × List Delta) → Json → Except InjectError Json
  | [], raw => .ok raw
  | (name, deltas) :: rest, raw =>
    match mapper.field? name with
    | none => writeFields mapper rest raw
    | some field =>
      match writeProperties field.definition.cardinality deltas field.mapped raw with
      | .ok raw => writeFields mapper rest raw
      | .error error => .error error

def create (mapper : Mapper) (values : EntityValues) : Except InjectError Json :=
  mapper.writeFields values.entries (.object [])

end Mapper

end RecordMapping

import RecordMapping.JsonPath.Machine
import RecordMapping.JsonPath.Normalized
import RecordMapping.Plan.Slashed

/-!
# Path queries as expressions

A path query is read without the blanks around it. A normalized query is also a plan that values can
be written through; one without wildcards that finds a single list stands for the items of the list.
-/

namespace RecordMapping

/-- A path query, with its plan when it is normalized. -/
structure PathQuery where
  source : String
  program : JsonPath.Program
  writable : Option Plan

namespace PathQuery

/-- The text without blanks around it, as faults show it. -/
def trimmed (source : String) : String := String.ofList (trim source.toList)

def parse (source : String) : Except ExpressionFault PathQuery :=
  let text := trim source.toList
  if text.isEmpty then .error .empty
  else match JsonPath.read? text with
    | none => .error .malformed
    | some program => .ok ⟨String.ofList text, program, Normalized.plan? text⟩

def isDefinite (query : PathQuery) : Bool :=
  match query.writable with
  | some plan => !plan.hasWildcard
  | none => false

def evaluate (query : PathQuery) (document : Json) : List Json :=
  let found := JsonPath.select query.program document
  match query.isDefinite, found with
  | true, [.list items] => items
  | _, _ => found

end PathQuery

end RecordMapping

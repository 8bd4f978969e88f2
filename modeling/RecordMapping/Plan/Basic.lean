import RecordMapping.Document.Write
import RecordMapping.Schema.Cardinality

/-!
# Addressing plans

A plan is a path in which a wildcard stands for every item of a list. Values are injected through a
plan item by item: the position of a value replaces every wildcard. Without a wildcard there is one
place, which takes the only value, the first one, or the list of them all.
-/

namespace RecordMapping

/-- One segment of a plan: a step, or every item of a list. -/
inductive Segment where
  | step (step : Step)
  | wildcard
  deriving DecidableEq

namespace Segment

def stepAt (position : Nat) : Segment → Step
  | .step s => s
  | .wildcard => .index position

end Segment

abbrev Plan : Type := List Segment

namespace Plan

def hasWildcard (plan : Plan) : Bool := plan.any (· == .wildcard)

def pathAt (plan : Plan) (position : Nat) : List Step := plan.map (Segment.stepAt position)

/-- Writes values to their places, the first one at a given position. -/
def writeFrom (plan : Plan) : Nat → List Json → Json → Except Conflict Json
  | _, [], document => .ok document
  | position, value :: rest, document =>
    match Json.write value (plan.pathAt position) document with
    | .ok document => writeFrom plan (position + 1) rest document
    | .error conflict => .error conflict

/-- The one value that several values make in one place; no value makes none. -/
def gather (cardinality : Cardinality) : List Json → Option Json
  | [] => none
  | [value] => some value
  | first :: rest => some (if cardinality.isSingle then first else .list (first :: rest))

/-- The document with values written through a plan. -/
def inject (plan : Plan) (values : List Json) (cardinality : Cardinality) (document : Json) :
    Except Conflict Json :=
  if plan.hasWildcard then plan.writeFrom 0 values document
  else match gather cardinality values with
    | none => .ok document
    | some value => Json.write value (plan.pathAt 0) document

/-- The values that a plan finds from a value on. A list at the end gives its items. A wildcard
gives one value for each item, null where the item lacks the rest of the plan; a value that is no
list counts as its only item. -/
def resolve : Plan → Option Json → List Json
  | [], none => []
  | [], some (.list items) => items
  | [], some value => [value]
  | .step step :: rest, value => resolve rest (value.bind (Json.child? step))
  | .wildcard :: _, none => []
  | .wildcard :: rest, some (.list items) =>
    items.map fun item => (resolve rest (some item)).head?.getD .null
  | .wildcard :: rest, some value => [(resolve rest (some value)).head?.getD .null]

end Plan

end RecordMapping

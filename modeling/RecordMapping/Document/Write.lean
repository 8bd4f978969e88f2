import RecordMapping.Document.Path

/-!
# Writing into documents

`Json.write` puts a value at a path and creates what is missing on the way: a missing container is
a list when the next step is position zero and an object otherwise, and a list grows by one item at
its end. Where something else is in the way the result is a conflict. A conflict is found before
anything is created, because nothing lies below a container that has just been made.
-/

namespace RecordMapping

inductive Obstacle where
  | pastEnd (position length : Nat)
  | namedItem (name : String)
  | scalar (found : Kind)
  | replacement (found written : Kind)
  deriving DecidableEq

namespace Obstacle

def message : Obstacle → String
  | .pastEnd position length =>
    s!"position {position} is past the end of a list of {length}"
  | .namedItem name => s!"a list already exists where member '{name}' is written"
  | .scalar found => "cannot descend into " ++ found.describe
  | .replacement found written =>
    "cannot replace " ++ found.describe ++ " with " ++ written.describe

end Obstacle

/-- An obstacle and the path at which it was met. -/
structure Conflict where
  path : List Step
  obstacle : Obstacle
  deriving DecidableEq

namespace Conflict

def below (step : Step) (conflict : Conflict) : Conflict :=
  { conflict with path := step :: conflict.path }

end Conflict

namespace Json

/-- The members with the value under a name changed by a fallible function; a missing member counts
as null and is added last. -/
def updateMember (step : Step) (change : Json → Except Conflict Json) (members : List Member) :
    Except Conflict Json :=
  match change ((findMember step.text members).getD .null) with
  | .ok value => .ok (.object (putMember step.text value members))
  | .error conflict => .error (conflict.below step)

/-- The list with the item at a position changed by a fallible function; the position after the
last item counts as null. -/
def updateItem (position : Nat) (change : Json → Except Conflict Json) (items : List Json) :
    Except Conflict Json :=
  match items[position]? with
  | some item =>
    match change item with
    | .ok value => .ok (.list (items.set position value))
    | .error conflict => .error (conflict.below (.index position))
  | none =>
    if position = items.length then
      match change .null with
      | .ok value => .ok (.list (items ++ [value]))
      | .error conflict => .error (conflict.below (.index position))
    else .error ⟨[.index position], .pastEnd position items.length⟩

/-- A container takes the place of a container or of null, a scalar that of a scalar or of null. -/
def replace (value current : Json) : Except Conflict Json :=
  if current.isNull || current.isContainer == value.isContainer then .ok value
  else .error ⟨[], .replacement current.kind value.kind⟩

/-- The document with a value written at a path. -/
def write (value : Json) : List Step → Json → Except Conflict Json
  | [], current => replace value current
  | step :: rest, .null =>
    match step with
    | .index 0 => updateItem 0 (write value rest) []
    | _ => updateMember step (write value rest) []
  | step :: rest, .object members => updateMember step (write value rest) members
  | .index position :: rest, .list items => updateItem position (write value rest) items
  | .key name :: _, .list _ => .error ⟨[.key name], .namedItem name⟩
  | step :: _, .bool _ => .error ⟨[step], .scalar .boolean⟩
  | step :: _, .number _ => .error ⟨[step], .scalar .number⟩
  | step :: _, .string _ => .error ⟨[step], .scalar .string⟩

end Json

end RecordMapping

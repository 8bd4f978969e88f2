import RecordMapping.Document.Write

/-!
# Writing in place

A document changed step by step on the way down a path. Null becomes a container, a missing member
or the item after the last one is made as null, and the value takes the place that was reached at
the end. Where something is in the way the walk stops, and the document stays as it was left.
-/

namespace RecordMapping

namespace Json

/-- What a step is taken into: null stands for an empty container. -/
def opened (step : Step) : Json → Json
  | .null => if step = .index 0 then .list [] else .object []
  | value => value

/-- The value with a child made for a step: a member where it is missing, an item after the last
one. -/
def withRoom (step : Step) (value : Json) : Json :=
  match value.opened step, step with
  | .object members, step =>
    match findMember step.text members with
    | some _ => .object members
    | none => .object (members ++ [(step.text, .null)])
  | .list items, .index position =>
    if position = items.length then .list (items ++ [.null]) else .list items
  | other, _ => other

/-- The value with another child in the place of the one at a step. -/
def putChild (step : Step) (child : Json) : Json → Json
  | .object members => .object (putMember step.text child members)
  | .list items =>
    match step with
    | .index position => .list (items.set position child)
    | .key _ => .list items
  | value => value

/-- Why nothing can be made for a step. -/
def obstacle (step : Step) : Json → Obstacle
  | .list items =>
    match step with
    | .index position => .pastEnd position items.length
    | .key name => .namedItem name
  | value => .scalar value.kind

/-- The document as a write along a path leaves it, and the conflict that stopped the write, if one
did. -/
def writeInPlace (value : Json) : List Step → Json → Json × Option Conflict
  | [], current =>
    if !current.isNull && current.isContainer != value.isContainer then
      (current, some ⟨[], .replacement current.kind value.kind⟩)
    else (value, none)
  | step :: rest, current =>
    let container := current.withRoom step
    match container.child? step with
    | some child =>
      let (child, conflict?) := writeInPlace value rest child
      (putChild step child container, conflict?.map (Conflict.below step))
    | none => (container, some ⟨[step], container.obstacle step⟩)

end Json

end RecordMapping

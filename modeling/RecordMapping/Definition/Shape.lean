/-!
# Shapes of definitions

A shape tells what is expected at each place of a definition, and which places do not count. Data
without types of their own take them from the shape that they are read with.
-/

namespace RecordMapping

inductive Shape where
  /-- Any scalar, by its text. -/
  | text
  | truth
  | integer
  /-- One of several names. -/
  | variant
  /-- Null, or what another shape expects. -/
  | optional (content : Shape)
  | sequence (item : Shape)
  | dictionary (value : Shape)
  /-- A dictionary or null. -/
  | entries (value : Shape)
  /-- Members with the given names; others do not count. -/
  | record (members : List (String × Shape))
  /-- Members of a kind that one of them names. -/
  | kinded (member : String)
  /-- Whatever there is; what is bare has no tag of its own. -/
  | anything (bare : Bool)

namespace Shape

def isOptional : Shape → Bool
  | .optional _ => true
  | _ => false

def core : Shape → Shape
  | .optional content => content.core
  | shape => shape

end Shape

end RecordMapping

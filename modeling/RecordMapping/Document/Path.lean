import RecordMapping.Json.Basic
import RecordMapping.Number.Numeral
import RecordMapping.Text.Pieces

/-!
# Paths into documents

A path is a list of steps. A step names a member of an object or gives a position in a list; a
position also finds the member named by its decimal, so a path means the same whether a container
is a list or an object with numeric names.
-/

namespace RecordMapping

/-- One step into a document. -/
inductive Step where
  | key (name : String)
  | index (position : Nat)
  deriving DecidableEq

namespace Step

/-- The text of a step, which is also the member it names in an object. -/
def text : Step → String
  | .key name => name
  | .index position => String.ofList (Nat.toDigits 10 position)

/-- Whether a text is the decimal of a position: digits without a leading zero, below `2 ^ 64`. -/
def isPosition (segment : List Char) : Bool :=
  !segment.isEmpty && segment.all Char.isDigit &&
    (segment == ['0'] || segment.head? != some '0') && decide (digitsValue segment < wordEnd)

def ofSegment (segment : List Char) : Step :=
  if isPosition segment then .index (digitsValue segment) else .key (String.ofList segment)

end Step

def stepsOf (path : String) : List Step := (pieces '/' path.toList).map Step.ofSegment

def pathText (path : List Step) : String :=
  String.ofList (joinPieces ['/'] (path.map fun step => step.text.toList))

namespace Json

def child? (step : Step) : Json → Option Json
  | .object members => findMember step.text members
  | .list items =>
    match step with
    | .index position => items[position]?
    | .key _ => none
  | _ => none

/-- The value at a path, if every step finds something. -/
def find? : List Step → Json → Option Json
  | [], value => some value
  | step :: rest, value => (value.child? step).bind (find? rest)

end Json

end RecordMapping

import RecordMapping.Plan.Basic
import RecordMapping.Text.Blank

namespace RecordMapping

/-- Why an expression cannot be used. -/
inductive ExpressionFault where
  | empty
  | emptySegment (number : Nat)
  | malformed
  | notWritable
  deriving DecidableEq

namespace ExpressionFault

/-- The fault in words; where a query is malformed is left out. -/
def message : ExpressionFault → String
  | .empty => "expression is empty"
  | .emptySegment number => s!"segment {number} is empty"
  | .malformed => "path error"
  | .notWritable => "only normalized paths can be written"

end ExpressionFault

/-- An expression of slash-separated segments. -/
structure SlashedPath where
  source : String
  plan : Plan
  deriving DecidableEq

namespace SlashedPath

def segmentOf (piece : List Char) : Segment :=
  if piece = ['*'] then .wildcard else .step (.ofSegment piece)

/-- The segments of pieces counted from a number on; an empty piece is a fault. -/
def segmentsFrom : Nat → List (List Char) → Except ExpressionFault Plan
  | _, [] => .ok []
  | number, piece :: rest =>
    if piece.isEmpty then .error (.emptySegment number)
    else match segmentsFrom (number + 1) rest with
      | .ok plan => .ok (segmentOf piece :: plan)
      | .error fault => .error fault

def parse (source : String) : Except ExpressionFault SlashedPath :=
  if isAllBlank source.toList then .error .empty
  else match segmentsFrom 1 (pieces '/' source.toList) with
    | .ok plan => .ok ⟨source, plan⟩
    | .error fault => .error fault

def segmentText : Segment → List Char
  | .step step => step.text.toList
  | .wildcard => ['*']

/-- The text of a plan, its segments joined by slashes. -/
def render (plan : Plan) : List Char := joinPieces ['/'] (plan.map segmentText)

def evaluate (path : SlashedPath) (document : Json) : List Json :=
  path.plan.resolve (some document)

end SlashedPath

end RecordMapping

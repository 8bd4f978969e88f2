namespace RecordMapping

/-- The number of values a field may hold. -/
inductive Cardinality where
  | limited (count : Nat) (positive : 0 < count) (small : count < 4294967296)
  | unlimited
  deriving DecidableEq

namespace Cardinality

def one : Cardinality := .limited 1 (by decide) (by decide)

def toInt : Cardinality → Int
  | .limited count _ _ => count
  | .unlimited => -1

/-- The cardinality of a written number, if it is one. -/
def ofInt? (n : Int) : Option Cardinality :=
  if n = -1 then some .unlimited
  else if h : 0 < n ∧ n < 4294967296 then some (.limited n.toNat (by omega) (by omega))
  else none

/-- Whether the field holds at most one value. -/
def isSingle : Cardinality → Bool
  | .limited count _ _ => count == 1
  | .unlimited => false

/-- The complaint about a number that is no cardinality. -/
def complaint (n : Int) : String :=
  s!"cardinality must be -1 (unlimited) or a positive count, got {n}"

end Cardinality

end RecordMapping

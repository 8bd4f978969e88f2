import RecordMapping.Number.Binary64

/-!
# The shortest decimal of a double

Among the decimals that read back as a given positive double, `Binary64.shortest` picks one with
the fewest digits and, of those, the nearest to the double. A decimal reads back exactly when it
lies in the rounding interval, whose ends belong to it when the significand is even. If a grid of
decimals with a fixed last place meets the interval, one of the double's two neighbours on the
grid does, so only those are tested.
-/

namespace RecordMapping

/-- A decimal `digits * 10 ^ lastPlace`. -/
structure Decimal where
  digits : Nat
  lastPlace : Int
  deriving DecidableEq

namespace Decimal

def leadingPlace (d : Decimal) : Int := d.lastPlace + (Nat.toDigits 10 d.digits).length - 1

def trim : Nat → Decimal → Decimal
  | 0, d => d
  | fuel + 1, d =>
    if d.digits ≠ 0 ∧ d.digits % 10 = 0 then trim fuel ⟨d.digits / 10, d.lastPlace + 1⟩ else d

end Decimal

namespace Binary64

/-- Whether the magnitude is at least `10 ^ place`. -/
def reachesPlace (x : Binary64) (place : Int) : Bool :=
  if place < 0 then decide (scale ≤ x.magnitude * Nat.pow 10 place.natAbs)
  else decide (Nat.pow 10 place.natAbs * scale ≤ x.magnitude)

/-- The exponent of the leading decimal digit of a non-zero magnitude: the estimate from the
binary logarithm is off by at most one. -/
def leadingPlace (x : Binary64) : Int :=
  let estimate := (((x.magnitude.log2 : Int) - 1074) * 30103).fdiv 100000
  if !x.reachesPlace estimate then estimate - 1
  else if x.reachesPlace (estimate + 1) then estimate + 1
  else estimate

/-- Four times the lower and upper ends of the interval of reals that round to the magnitude. -/
def roundingInterval (x : Binary64) : Nat × Nat :=
  let ulp := Nat.pow 2 x.exponent
  let below := if x.mantissa = leading ∧ x.exponent ≠ 0 then ulp else 2 * ulp
  (4 * x.magnitude - below, 4 * x.magnitude + 2 * ulp)

/-- Whether `digits * 10 ^ place` lies in the rounding interval of the magnitude. -/
def readsFrom (x : Binary64) (digits : Nat) (place : Int) : Bool :=
  let (low, high) := x.roundingInterval
  let power := Nat.pow 10 place.natAbs
  let value := if place < 0 then 4 * digits * scale else 4 * digits * power * scale
  let factor := if place < 0 then power else 1
  if x.mantissa % 2 = 0 then decide (low * factor ≤ value ∧ value ≤ high * factor)
  else decide (low * factor < value ∧ value < high * factor)

/-- The better of the two neighbours of the magnitude on the grid `10 ^ place`, if one reads
back. -/
def onGrid? (x : Binary64) (place : Int) : Option Decimal :=
  let power := Nat.pow 10 place.natAbs
  let num := if place < 0 then x.magnitude * power else x.magnitude
  let den := if place < 0 then scale else scale * power
  let below := num / den
  match x.readsFrom below place, x.readsFrom (below + 1) place with
  | true, true => some ⟨roundHalfEven num den, place⟩
  | true, false => some ⟨below, place⟩
  | false, true => some ⟨below + 1, place⟩
  | false, false => none

/-- The first grid, from coarse to fine, that has a decimal reading back. -/
def firstGrid (x : Binary64) : Nat → Int → Decimal
  | 0, place => (x.onGrid? place).getD ⟨0, place⟩
  | fuel + 1, place =>
    match x.onGrid? place with
    | some d => d
    | none => x.firstGrid fuel (place - 1)

/-- The shortest decimal that reads back as the magnitude; zero is `0`. -/
def shortest (x : Binary64) : Decimal :=
  if x.isZero then ⟨0, 0⟩ else (x.firstGrid 17 x.leadingPlace).trim 20

end Binary64

end RecordMapping

/-!
# Finite binary64 numbers

A finite double is a signed whole multiple of `2 ^ -1074`, the smallest subnormal. Keeping the
significand and the exponent apart, in the one canonical form, makes equality of two doubles
equality of the record, and every rounding below is exact arithmetic on naturals followed by one
rounding to nearest, ties to even.
-/

namespace RecordMapping

/-- The leading bit of a full significand: `2 ^ 52`. -/
abbrev Binary64.leading : Nat := 4503599627370496

/-- Where a significand carries into the exponent: `2 ^ 53`. -/
abbrev Binary64.carry : Nat := 9007199254740992

/-- A finite binary64 value `± mantissa * 2 ^ exponent * 2 ^ -1074` in canonical form. -/
structure Binary64 where
  negative : Bool
  mantissa : Nat
  exponent : Nat
  mantissa_lt : mantissa < Binary64.carry
  normalized : exponent = 0 ∨ Binary64.leading ≤ mantissa
  exponent_le : exponent ≤ 2045
  deriving DecidableEq

namespace Binary64

def zero (negative : Bool) : Binary64 :=
  ⟨negative, 0, 0, by decide, Or.inl rfl, by decide⟩

/-- The largest finite value with the given sign. -/
def largest (negative : Bool) : Binary64 :=
  ⟨negative, carry - 1, 2045, by decide, Or.inr (by decide), by decide⟩

/-- The denominator of every value: doubles are whole multiples of `1 / scale`. -/
def scale : Nat := Nat.pow 2 1074

/-- The magnitude as a multiple of `1 / scale`. -/
def magnitude (x : Binary64) : Nat := x.mantissa * Nat.pow 2 x.exponent

/-- The value as a multiple of `1 / scale`. -/
def units (x : Binary64) : Int :=
  if x.negative then -(x.magnitude : Int) else x.magnitude

/-- The canonical value with this significand and exponent, if there is one. -/
def ofParts? (negative : Bool) (mantissa exponent : Nat) : Option Binary64 :=
  if h : mantissa < carry ∧ (exponent = 0 ∨ leading ≤ mantissa) ∧ exponent ≤ 2045 then
    some ⟨negative, mantissa, exponent, h.1, h.2.1, h.2.2⟩
  else
    none

/-- The quotient rounded to the nearest natural number, a half going to the even neighbour. -/
def roundHalfEven (num den : Nat) : Nat :=
  let quotient := num / den
  let twice := 2 * (num % den)
  if twice < den then quotient
  else if den < twice then quotient + 1
  else if quotient % 2 = 0 then quotient
  else quotient + 1

/-- The double nearest to `num / den`, ties to even; `none` when it is out of range. -/
def ofRatio? (negative : Bool) (num den : Nat) : Option Binary64 :=
  let scaled := num * scale
  let exponent := (scaled / den).log2 - 52
  let mantissa := roundHalfEven scaled (den * Nat.pow 2 exponent)
  if mantissa = carry then ofParts? negative leading (exponent + 1)
  else ofParts? negative mantissa exponent

/-- The double nearest to an integer; integers out of range give the largest value. -/
def ofInt (n : Int) : Binary64 :=
  (ofRatio? (decide (n < 0)) n.natAbs 1).getD (largest (decide (n < 0)))

/-- The double nearest to `digits * 10 ^ exponent`; `none` when it is out of range. The two guards
keep absurd exponents from building absurd powers. -/
def ofDecimal? (negative : Bool) (digits : Nat) (exponent : Int) : Option Binary64 :=
  let places : Int := (Nat.toDigits 10 digits).length
  if digits = 0 ∨ exponent + places < -400 then some (zero negative)
  else if 400 < exponent + places then none
  else if exponent < 0 then ofRatio? negative digits (Nat.pow 10 exponent.natAbs)
  else ofRatio? negative (digits * Nat.pow 10 exponent.natAbs) 1

/-- The product rounded to nearest; `none` on overflow. -/
def mul? (x y : Binary64) : Option Binary64 :=
  ofRatio? (x.negative != y.negative) (x.magnitude * y.magnitude) (scale * scale)

/-- The quotient by a non-zero value rounded to nearest; `none` on overflow. -/
def div? (x y : Binary64) : Option Binary64 :=
  if y.magnitude = 0 then none else ofRatio? (x.negative != y.negative) x.magnitude y.magnitude

def withSign (negative : Bool) (x : Binary64) : Binary64 := { x with negative := negative }

/-- Numeric comparison: the two zeros are equal. -/
def compare (x y : Binary64) : Ordering := Ord.compare x.units y.units

/-- Numeric equality: the two zeros are equal. -/
def same (x y : Binary64) : Bool := x.units == y.units

def isZero (x : Binary64) : Bool := x.mantissa == 0

def truncate (x : Binary64) : Int := x.units.tdiv scale

end Binary64

end RecordMapping

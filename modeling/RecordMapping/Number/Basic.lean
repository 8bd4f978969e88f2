import RecordMapping.Number.Shortest

/-!
# Numbers of raw documents

A number is an integer that fits a signed or an unsigned 64-bit word, or a finite double. The two
kinds never equal each other, so `3` and `3.0` are different values; two doubles are the same when
they are numerically equal.
-/

namespace RecordMapping

/-- Unsigned 64-bit words lie below `2 ^ 64`. -/
abbrev wordEnd : Nat := 18446744073709551616

/-- Signed 64-bit words lie below `2 ^ 63` and not below its negation. -/
abbrev signedEnd : Int := 9223372036854775808

/-- The integers of raw documents: those of a signed or an unsigned 64-bit word. -/
def FitsWord (n : Int) : Prop := -signedEnd ≤ n ∧ n < wordEnd

instance (n : Int) : Decidable (FitsWord n) := inferInstanceAs (Decidable (_ ∧ _))

/-- A number: an integer or a double. -/
inductive Number where
  | integer (value : Int) (fits : FitsWord value)
  | float (value : Binary64)
  deriving DecidableEq

/-- The nearest integer of a signed 64-bit word. -/
def clampToSigned (n : Int) : Int := max (-signedEnd) (min n (signedEnd - 1))

/-- An integer in decimal, with a minus sign when negative. -/
def integerText (n : Int) : List Char :=
  if n < 0 then '-' :: Nat.toDigits 10 n.natAbs else Nat.toDigits 10 n.natAbs

/-- Where a double is written positionally: from `lowestPositional` up to, not including,
`firstScientific`, counted in exponents of its leading digit. -/
structure FloatLayout where
  lowestPositional : Int
  firstScientific : Int

namespace FloatLayout

/-- Digits around the point; a whole number keeps one zero after it. -/
def positional (digits : List Char) (leadingPlace : Int) : List Char :=
  if leadingPlace < 0 then
    '0' :: '.' :: (List.replicate (leadingPlace.natAbs - 1) '0' ++ digits)
  else
    let places := leadingPlace.natAbs + 1
    let whole := digits.take places ++ List.replicate (places - digits.length) '0'
    let fraction := digits.drop places
    whole ++ '.' :: (if fraction.isEmpty then ['0'] else fraction)

/-- One digit before the point and a signed exponent. -/
def scientific (digits : List Char) (leadingPlace : Int) : List Char :=
  let significand := match digits with
    | [] => ['0']
    | [d] => [d]
    | d :: rest => d :: '.' :: rest
  let sign := if leadingPlace < 0 then '-' else '+'
  significand ++ 'e' :: sign :: Nat.toDigits 10 leadingPlace.natAbs

/-- The text of a double: its shortest digits, positional or scientific. -/
def write (layout : FloatLayout) (x : Binary64) : List Char :=
  let shortest := x.shortest
  let digits := Nat.toDigits 10 shortest.digits
  let place := shortest.leadingPlace
  let unsigned :=
    if layout.lowestPositional ≤ place ∧ place < layout.firstScientific then
      positional digits place
    else
      scientific digits place
  if x.negative then '-' :: unsigned else unsigned

end FloatLayout

namespace Number

/-- Doubles from `0.00001` up to, not including, `10 ^ 16` are written positionally. -/
def layout : FloatLayout := ⟨-5, 16⟩

def ofInt? (n : Int) : Option Number :=
  if h : FitsWord n then some (.integer n h) else none

/-- The number of an integer, as a double when it does not fit a word. -/
def ofInt (n : Int) : Number :=
  if h : FitsWord n then .integer n h else .float (.ofInt n)

/-- Equality of values: integers by value, doubles numerically, never across. -/
def same : Number → Number → Bool
  | .integer m _, .integer n _ => m == n
  | .float x, .float y => x.same y
  | _, _ => false

def toBinary64 : Number → Binary64
  | .integer n _ => .ofInt n
  | .float x => x

/-- The number without its fraction, clamped to a signed 64-bit word. -/
def toSigned : Number → Int
  | .integer n _ => clampToSigned n
  | .float x => clampToSigned x.truncate

def text : Number → List Char
  | .integer n _ => integerText n
  | .float x => layout.write x

end Number

end RecordMapping

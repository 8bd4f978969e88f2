import RecordMapping.Number.Basic

/-!
# Reading numbers

Two readings of decimal text. A *numeral* inside a string value may carry a sign, may lack digits
on one side of the point, and is rounded correctly. A *literal* of a document keeps as many leading
digits as fit an unsigned word and scales them by a power of ten in binary64 arithmetic; it becomes
an integer when it has neither point nor exponent and fits.
-/

namespace RecordMapping

def digitsValue (digits : List Char) : Nat := Nat.ofDigitChars 10 digits 0

/-- The digits at the start of a text, and what follows them. -/
def splitDigits (text : List Char) : List Char × List Char :=
  (text.takeWhile Char.isDigit, text.dropWhile Char.isDigit)

/-- Whether the text starts with a minus sign, and the text without its sign. -/
def splitSign : List Char → Bool × List Char
  | '-' :: rest => (true, rest)
  | '+' :: rest => (false, rest)
  | rest => (false, rest)

namespace Numeral

/-- An unsigned 64-bit word in decimal digits. -/
def word? (digits : List Char) : Option Nat :=
  if digits.isEmpty || !digits.all Char.isDigit || wordEnd ≤ digitsValue digits then none
  else some (digitsValue digits)

/-- An unsigned 64-bit word in decimal, with an optional plus sign. -/
def count? : List Char → Option Nat
  | '+' :: digits => word? digits
  | digits => word? digits

/-- A signed 64-bit integer in decimal, with an optional sign. -/
def integer? (text : List Char) : Option Int :=
  let (negative, rest) := splitSign text
  let value : Int := digitsValue rest
  let signed := if negative then -value else value
  if rest.isEmpty || !rest.all Char.isDigit || signed ≠ clampToSigned signed then none
  else some signed

/-- An exponent after `e` or `E`; no text at all is exponent zero. -/
def exponent? : List Char → Option Int
  | [] => some 0
  | c :: text =>
    let (negative, digits) := splitSign text
    if (c ≠ 'e' ∧ c ≠ 'E') ∨ digits.isEmpty ∨ !digits.all Char.isDigit then none
    else if negative then some (-(digitsValue digits : Int))
    else some (digitsValue digits)

/-- A finite double in decimal, rounded to nearest. -/
def float? (text : List Char) : Option Binary64 :=
  let (negative, unsigned) := splitSign text
  let (whole, rest) := splitDigits unsigned
  let (fraction, tail) := match rest with
    | '.' :: after => splitDigits after
    | _ => ([], rest)
  if whole.isEmpty && fraction.isEmpty then none
  else do
    let exponent ← exponent? tail
    Binary64.ofDecimal? negative (digitsValue (whole ++ fraction)) (exponent - fraction.length)

end Numeral

namespace Literal

/-- Appends digits to a significand while it fits a word, and counts the digits left over. -/
def keepDigits (significand : Nat) : List Char → Nat × Nat
  | [] => (significand, 0)
  | c :: rest =>
    let next := significand * 10 + (c.toNat - '0'.toNat)
    if wordEnd ≤ next then (significand, rest.length + 1) else keepDigits next rest

/-- The double nearest to `10 ^ n` for the exponents scaled in one step. -/
def powerOfTen (n : Nat) : Binary64 :=
  (Binary64.ofRatio? false (Nat.pow 10 n) 1).getD (Binary64.largest false)

/-- Scales by a power of ten, at most 308 places at a time; `none` on overflow. -/
def scaleBy : Nat → Binary64 → Int → Option Binary64
  | 0, x, _ => if x.isZero then some x else none
  | fuel + 1, x, exponent =>
    if exponent.natAbs ≤ 308 then
      if 0 ≤ exponent then x.mul? (powerOfTen exponent.natAbs)
      else x.div? (powerOfTen exponent.natAbs)
    else if x.isZero then some x
    else if 0 ≤ exponent then none
    else do scaleBy fuel (← x.div? (powerOfTen 308)) (exponent + 308)

/-- The largest exponent that is added to the digits' places; a larger one decides by its sign. -/
def exponentMax : Nat := 2147483647

/-- A signed double from kept digits and the power of ten they stand for. Sixteen steps of 308
places take every significand to zero. -/
def float? (negative : Bool) (significand : Nat) (exponent : Int) : Option Binary64 := do
  let x ← scaleBy 16 (Binary64.ofInt significand) exponent
  return x.withSign negative

/-- The rest of a literal from its exponent sign on. -/
def afterExponent? (negative : Bool) (significand : Nat) (places : Int) (text : List Char) :
    Option (Number × List Char) :=
  let (down, unsigned) := splitSign text
  let (digits, rest) := splitDigits unsigned
  let exponent : Int := digitsValue digits
  if digits.isEmpty then none
  else if (exponentMax : Int) < exponent then
    if significand ≠ 0 ∧ !down then none else some (.float (.zero negative), rest)
  else do
    let x ← float? negative significand (if down then places - exponent else places + exponent)
    return (.float x, rest)

/-- The rest of a literal after its digits: a double, scaled. -/
def floatTail? (negative : Bool) (significand : Nat) (places : Int) : List Char →
    Option (Number × List Char)
  | 'e' :: rest => afterExponent? negative significand places rest
  | 'E' :: rest => afterExponent? negative significand places rest
  | rest => do
    let x ← float? negative significand places
    return (.float x, rest)

/-- The integer of a literal without point and exponent; minus zero is a double. -/
def integerValue (negative : Bool) (significand : Nat) : Number :=
  if negative then
    if significand = 0 then .float (.zero true) else .ofInt (-(significand : Int))
  else .ofInt significand

/-- The number literal at the start of a text, and what follows it. -/
def read? (text : List Char) : Option (Number × List Char) :=
  let (negative, unsigned) := match text with
    | '-' :: rest => (true, rest)
    | _ => (false, text)
  let (whole, rest) := splitDigits unsigned
  let (significand, dropped) := keepDigits 0 whole
  if whole.isEmpty || (whole.head? == some '0' && 1 < whole.length) then none
  else match rest with
    | '.' :: after =>
      let (fraction, tail) := splitDigits after
      let (kept, left) := keepDigits significand fraction
      if fraction.isEmpty then none
      else floatTail? negative kept (dropped - (fraction.length - left : Nat)) tail
    | c :: _ =>
      if c = 'e' ∨ c = 'E' ∨ dropped ≠ 0 then floatTail? negative significand dropped rest
      else some (integerValue negative significand, rest)
    | [] =>
      if dropped ≠ 0 then floatTail? negative significand dropped []
      else some (integerValue negative significand, [])

end Literal

end RecordMapping

import RecordMapping.Definition.Datum
import RecordMapping.Number.Numeral

/-!
# What plain scalars stand for

A plain scalar has no type of its own. Where nothing in particular is expected it is null, a truth
value or a number if it looks like one, and its text otherwise.
-/

namespace RecordMapping

namespace Yaml

namespace Plain

def isNullWord (text : String) : Bool := ["~", "null", "Null", "NULL"].contains text

def isNull (text : String) : Bool := text.isEmpty || isNullWord text

/-- The truth value that a word stands for. -/
def truth? (text : String) : Option Bool :=
  if ["true", "True", "TRUE"].contains text then some true
  else if ["false", "False", "FALSE"].contains text then some false
  else none

/-- The value of a digit in a base of at most sixteen. -/
def digit? (base : Nat) (c : Char) : Option Nat :=
  let n := c.toNat
  let value? :=
    if c.isDigit then some (n - 48)
    else if 97 ≤ n ∧ n ≤ 102 then some (n - 87)
    else if 65 ≤ n ∧ n ≤ 70 then some (n - 55)
    else none
  value?.filter (· < base)

def natural? (base : Nat) (digits : List Char) : Option Nat :=
  if digits.isEmpty then none
  else digits.foldlM (fun n c => (digit? base c).map (n * base + ·)) 0

def hasLeadingZero (text : List Char) : Bool :=
  let digits := match text with
    | '-' :: rest => rest
    | '+' :: rest => rest
    | _ => text
  match digits with
  | '0' :: c :: rest => (c :: rest).all Char.isDigit
  | _ => false

/-- The value of digits after `0x`, `0o` or `0b`. -/
def based? : List Char → Option Nat
  | '0' :: 'x' :: digits => natural? 16 digits
  | '0' :: 'o' :: digits => natural? 8 digits
  | '0' :: 'b' :: digits => natural? 2 digits
  | _ => none

/-- The integer that a text writes, of any size. -/
def integer? (text : String) : Option Int :=
  let chars := text.toList
  let (negative, unsigned) := splitSign chars
  let magnitude? := (based? unsigned).or
    (if hasLeadingZero chars then none else natural? 10 unsigned)
  magnitude?.map fun n => if negative then -(n : Int) else n

def signed? (text : String) : Option Int :=
  (integer? text).filter fun n => decide (-signedEnd ≤ n) && decide (n < signedEnd)

/-- Integers from `-2 ^ 127` up to, not including, `2 ^ 128` are never taken for doubles. -/
def isWide (n : Int) : Bool :=
  decide (-170141183460469231731687303715884105728 ≤ n) &&
    decide (n < 340282366920938463463374607431768211456)

/-- The name of what is not finite and a text writes. -/
def notFinite? (text : String) : Option String :=
  if [".inf", ".Inf", ".INF", "+.inf", "+.Inf", "+.INF"].contains text then some ".inf"
  else if ["-.inf", "-.Inf", "-.INF"].contains text then some "-.inf"
  else if [".nan", ".NaN", ".NAN"].contains text then some ".nan"
  else none

def double? (text : String) : Option Datum :=
  match notFinite? text with
  | some name => some (.notFinite name)
  | none => (Numeral.float? text.toList).map fun x => .number (.float x)

/-- The datum that a plain scalar stands for. Integers that fit no word are refused up to a width,
and are doubles beyond it. -/
def resolve? (text : String) : Option Datum :=
  if isNull text then some .null
  else match truth? text with
    | some b => some (.bool b)
    | none =>
      match (integer? text).filter isWide with
      | some n => (Number.ofInt? n).map Datum.number
      | none =>
        let double? := if hasLeadingZero text.toList then none else double? text
        some (double?.getD (.string text))

end Plain

end Yaml

end RecordMapping

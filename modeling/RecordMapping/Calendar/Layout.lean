import RecordMapping.Calendar.Instant
import RecordMapping.Number.Numeral
import RecordMapping.Text.Blank

/-!
# Reading dates by layout

A layout is a list of items, each of which takes a part of a text and fills in a part of a date and
time. Blanks before a number are skipped, a blank in a layout stands for any number of blanks, month
names ignore case, and nothing may follow the last item.
-/

namespace RecordMapping

namespace Calendar

/-- Parts of a date and time found in a text. -/
structure Parts where
  year : Option Int
  month : Option Nat
  day : Option Nat
  hour : Option Nat
  minute : Option Nat
  second : Option Nat
  nanos : Option Nat
  offset : Option Int
  weekday : Option Nat
  deriving DecidableEq

namespace Parts

def none : Parts :=
  ⟨.none, .none, .none, .none, .none, .none, .none, .none, .none⟩

def date? (parts : Parts) : Option Date := do
  let date : Date := ⟨← parts.year, ← parts.month, ← parts.day⟩
  if date.isValid && (parts.weekday.all (· == date.weekday)) then some date else .none

/-- The time of day of the parts; without seconds they are zero. -/
def time? (parts : Parts) : Option TimeOfDay := do
  let time : TimeOfDay :=
    ⟨← parts.hour, ← parts.minute, parts.second.getD 0, parts.nanos.getD 0⟩
  if time.isValid then some time else .none

def instant? (offset : Option Int) (parts : Parts) : Option Instant := do
  Instant.ofLocal? (← parts.date?) (← parts.time?) (← parts.offset.or offset)

end Parts

/-- A number of `least` to `most` digits. -/
def number? (least most : Nat) (text : List Char) : Option (Nat × List Char) :=
  let digits := (text.take most).takeWhile Char.isDigit
  if digits.length < least then none else some (digitsValue digits, text.drop digits.length)

/-- A number of digits without upper limit, of a signed 64-bit word. -/
def longNumber? (least : Nat) (text : List Char) : Option (Nat × List Char) :=
  match number? least text.length text with
  | some (n, rest) => if (n : Int) < signedEnd then some (n, rest) else none
  | none => none

def char? (c : Char) : List Char → Option (List Char)
  | [] => none
  | d :: rest => if d = c then some rest else none

/-- The text from its first character that is no blank. -/
def skipBlank (text : List Char) : List Char := text.dropWhile isBlank

def blanks? : List Char → Option (List Char)
  | [] => none
  | c :: rest => if isBlank c then some (skipBlank rest) else none

/-- Digits after a point as nanoseconds; those after the ninth do not count. -/
def fraction? (text : List Char) : Option (Nat × List Char) :=
  let digits := text.takeWhile Char.isDigit
  let kept := digits.take 9
  if digits.isEmpty then none
  else some (digitsValue kept * Nat.pow 10 (9 - kept.length), text.drop digits.length)

/-- A text at the start of another, in letters of any case; the first is in lower case. -/
def word? : List Char → List Char → Option (List Char)
  | [], text => some text
  | _ :: _, [] => none
  | c :: word, d :: text => if d.toLower = c then word? word text else none

/-- The months in lower case: the first three letters, and the others. -/
def monthNames : List (List Char × List Char) :=
  [("jan", "uary"), ("feb", "ruary"), ("mar", "ch"), ("apr", "il"), ("may", ""), ("jun", "e"),
    ("jul", "y"), ("aug", "ust"), ("sep", "tember"), ("oct", "ober"), ("nov", "ember"),
    ("dec", "ember")].map fun (head, tail) => (head.toList, tail.toList)

/-- The first of several words that starts a text, by its place, and what follows. -/
def firstWord? (place : Nat) : List (List Char) → List Char → Option (Nat × List Char)
  | [], _ => none
  | word :: others, text =>
    match word? word text with
    | some rest => some (place, rest)
    | none => firstWord? (place + 1) others text

/-- The number of a month named by its first three letters. -/
def shortMonth? (text : List Char) : Option (Nat × List Char) :=
  firstWord? 1 (monthNames.map Prod.fst) text

/-- The number of a month named by its first three letters or in full. -/
def longMonth? (text : List Char) : Option (Nat × List Char) := do
  let (month, rest) ← shortMonth? text
  let (_, tail) ← monthNames[month - 1]?
  return (month, (word? tail rest).getD rest)

/-- A sign, two digits of hours, a separator that is taken by a function, and two digits of minutes,
as an offset in seconds. -/
def offset? (minusSign : Bool) (separator? : List Char → Option (List Char)) :
    List Char → Option (Int × List Char)
  | [] => none
  | sign :: text => do
    let negative ←
      if sign = '+' then some false
      else if sign = '-' ∨ (minusSign ∧ sign = '−') then some true
      else none
    let (hours, rest) ← number? 2 2 text
    let (minutes, rest) ← number? 2 2 (← separator? rest)
    let seconds : Int := hours * 3600 + minutes * 60
    if 60 ≤ minutes then none else return (if negative then -seconds else seconds, rest)

inductive Item where
  | literal (c : Char)
  | blank
  | year
  | month
  | day
  | hour
  | minute
  | second
  | fraction
  | shortMonthName
  | longMonthName
  | offset
  deriving DecidableEq

/-- A year: up to four digits, or any number of them after a sign. -/
def year? (text : List Char) : Option (Int × List Char) :=
  match text with
  | '-' :: rest => (longNumber? 1 rest).map fun (n, after) => (-(n : Int), after)
  | '+' :: rest => (longNumber? 1 rest).map fun (n, after) => ((n : Int), after)
  | _ => (number? 1 4 text).map fun (n, after) => ((n : Int), after)

/-- A number of one or two digits within bounds, after blanks. -/
def shortNumber? (low high : Nat) (text : List Char) : Option (Nat × List Char) := do
  let (n, rest) ← number? 1 2 (skipBlank text)
  if low ≤ n ∧ n ≤ high then some (n, rest) else none

/-- What an item takes from a text, and the parts with what it found. -/
def Item.take? (item : Item) (parts : Parts) (text : List Char) : Option (Parts × List Char) :=
  match item with
  | .literal c => (char? c text).map fun rest => (parts, rest)
  | .blank => some (parts, skipBlank text)
  | .year => do
    let (n, rest) ← year? (skipBlank text)
    return ({ parts with year := n }, rest)
  | .month => do
    let (n, rest) ← shortNumber? 1 12 text
    return ({ parts with month := n }, rest)
  | .day => do
    let (n, rest) ← shortNumber? 1 31 text
    return ({ parts with day := n }, rest)
  | .hour => do
    let (n, rest) ← shortNumber? 0 23 text
    return ({ parts with hour := n }, rest)
  | .minute => do
    let (n, rest) ← shortNumber? 0 59 text
    return ({ parts with minute := n }, rest)
  | .second => do
    let (n, rest) ← shortNumber? 0 60 text
    return ({ parts with second := n }, rest)
  | .fraction =>
    match text with
    | '.' :: digits => do
      let (n, rest) ← fraction? digits
      return ({ parts with nanos := n }, rest)
    | _ => some (parts, text)
  | .shortMonthName => do
    let (n, rest) ← shortMonth? text
    return ({ parts with month := n }, rest)
  | .longMonthName => do
    let (n, rest) ← longMonth? text
    return ({ parts with month := n }, rest)
  | .offset => do
    let (n, rest) ← offset? true (fun t => some (t.dropWhile fun c => c == ':' || isBlank c))
      (skipBlank text)
    return ({ parts with offset := n }, rest)

abbrev Layout : Type := List Item

/-- The parts that a layout finds in a whole text. -/
def Layout.read? : Layout → Parts → List Char → Option Parts
  | [], parts, [] => some parts
  | [], _, _ :: _ => none
  | item :: layout, parts, text =>
    match item.take? parts text with
    | some (parts, rest) => Layout.read? layout parts rest
    | none => none

end Calendar

end RecordMapping

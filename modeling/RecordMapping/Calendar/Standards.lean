import RecordMapping.Calendar.Layout

namespace RecordMapping

namespace Calendar

/-- A number of a fixed count of digits within bounds. -/
def fixedNumber? (digits low high : Nat) (text : List Char) : Option (Nat × List Char) := do
  let (n, rest) ← number? digits digits text
  if low ≤ n ∧ n ≤ high then some (n, rest) else none

def colon? (text : List Char) : Option (List Char) := char? ':' text

/-- The offset of an internet timestamp: `Z`, or hours and minutes with a colon. -/
def timestampOffset? : List Char → Option (Int × List Char)
  | 'Z' :: rest => some (0, rest)
  | 'z' :: rest => some (0, rest)
  | text => offset? true colon? text

def optionalFraction? (text : List Char) : Option (Option Nat × List Char) :=
  match text with
  | '.' :: digits => (fraction? digits).map fun (n, rest) => (some n, rest)
  | _ => some (none, text)

def timeMark? : List Char → Option (List Char)
  | [] => none
  | c :: rest => if c = 'T' ∨ c = 't' ∨ c = ' ' then some rest else none

def timestamp? (text : List Char) : Option Instant := do
  let (year, text) ← number? 4 4 text
  let (month, text) ← fixedNumber? 2 1 12 (← char? '-' text)
  let (day, text) ← fixedNumber? 2 1 31 (← char? '-' text)
  let (hour, text) ← fixedNumber? 2 0 23 (← timeMark? text)
  let (minute, text) ← fixedNumber? 2 0 59 (← colon? text)
  let (second, text) ← fixedNumber? 2 0 60 (← colon? text)
  let (nanos, text) ← optionalFraction? text
  let (offset, text) ← timestampOffset? text
  if text.isEmpty then
    Parts.instant? none
      ⟨some (year : Int), month, day, hour, minute, second, nanos, offset, none⟩
  else none

/-- The days of the week in lower case. -/
def weekdayNames : List (List Char) :=
  ["mon", "tue", "wed", "thu", "fri", "sat", "sun"].map String.toList

def zoneNames : List (String × Int) :=
  [("gmt", 0), ("ut", 0), ("z", 0), ("edt", -4), ("est", -5), ("cdt", -5), ("cst", -6),
    ("mdt", -6), ("mst", -7), ("pdt", -7), ("pst", -8)]

/-- The offset of a named zone; a single letter other than `J` counts as zero. -/
def zoneNamed? (name : List Char) : Option Int :=
  let name := name.map Char.toLower
  match zoneNames.lookup (String.ofList name) with
  | some hours => some (hours * 3600)
  | none => if name.length = 1 ∧ name ≠ ['j'] then some 0 else none

def mailZone? (text : List Char) : Option (Int × List Char) :=
  let name := text.takeWhile Char.isAlpha
  if name.isEmpty then offset? false some text
  else (zoneNamed? name).map fun offset => (offset, text.dropWhile Char.isAlpha)

/-- The text after a comment, given how many parentheses are open. A backslash takes the meaning
from the next character. -/
def commentEnd? : Nat → List Char → Option (List Char)
  | _, [] => none
  | depth, '\\' :: rest =>
    match rest with
    | [] => none
    | _ :: more => commentEnd? depth more
  | depth, c :: rest =>
    if c = '(' then commentEnd? (depth + 1) rest
    else if c = ')' then (if depth = 0 then some rest else commentEnd? (depth - 1) rest)
    else commentEnd? depth rest

/-- Whether nothing but comments follows. Every comment takes at least two characters. -/
def onlyComments : Nat → List Char → Bool
  | 0, text => text.isEmpty
  | fuel + 1, text =>
    if text.isEmpty then true
    else match skipBlank text with
      | '(' :: rest =>
        match commentEnd? 0 rest with
        | some after => onlyComments fuel after
        | none => false
      | _ => false

/-- The weekday at the start of a mail header, if there is one; a comma has to follow it. -/
def mailWeekday? (text : List Char) : Option (Option Nat × List Char) :=
  match firstWord? 0 weekdayNames text with
  | some (day, ',' :: rest) => some (some day, rest)
  | some _ => none
  | none => some (none, text)

/-- The year of a mail header: two digits mean 1950 to 2049, three are counted from 1900. -/
def mailYear? (text : List Char) : Option (Int × List Char) := do
  let (n, rest) ← longNumber? 2 text
  let digits := text.length - rest.length
  let year : Int :=
    if digits = 2 then (if n < 50 then n + 2000 else n + 1900)
    else if digits = 3 then n + 1900
    else n
  return (year, rest)

/-- The seconds of a mail header, if a colon follows; no blank may stand between the two. -/
def mailSecond? (text : List Char) : Option (Option Nat × List Char) :=
  match char? ':' (skipBlank text) with
  | some rest => (fixedNumber? 2 0 60 rest).map fun (n, rest) => (some n, rest)
  | none => some (none, text)

def mailDate? (text : List Char) : Option Instant := do
  let (weekday, text) ← mailWeekday? (skipBlank text)
  let (day, text) ← number? 1 2 (skipBlank text)
  let (month, text) ← shortMonth? (← blanks? text)
  let (year, text) ← mailYear? (← blanks? text)
  let (hour, text) ← fixedNumber? 2 0 23 (← blanks? text)
  let (minute, text) ← fixedNumber? 2 0 59 (skipBlank (← colon? (skipBlank text)))
  let (second, text) ← mailSecond? text
  let (offset, text) ← mailZone? (← blanks? text)
  if onlyComments text.length text then
    Parts.instant? none ⟨some year, month, day, hour, minute, second, none, offset, weekday⟩
  else none

end Calendar

end RecordMapping

/-!
# Calendar dates

Dates of the proleptic Gregorian calendar, with a year zero, and their day numbers counted from
1970-01-01. Years are counted from March inside the conversions, so that a leap day ends its year.
-/

namespace RecordMapping

/-- A year, a month from 1 and a day from 1. -/
structure Date where
  year : Int
  month : Nat
  day : Nat
  deriving DecidableEq

namespace Date

def isLeap (year : Int) : Bool := year % 4 == 0 && (year % 100 != 0 || year % 400 == 0)

def monthLength (year : Int) (month : Nat) : Nat :=
  if month = 2 then (if isLeap year then 29 else 28)
  else if month = 4 ∨ month = 6 ∨ month = 9 ∨ month = 11 then 30
  else 31

def firstYear : Int := -262143

def lastYear : Int := 262142

/-- Whether a date exists and is in the supported range. -/
def isValid (d : Date) : Bool :=
  decide (firstYear ≤ d.year) && decide (d.year ≤ lastYear) && decide (1 ≤ d.month) &&
    decide (d.month ≤ 12) && decide (1 ≤ d.day) && decide (d.day ≤ monthLength d.year d.month)

/-- Days from the start of March to the start of a month counted from March. -/
def daysBefore (monthFromMarch : Int) : Int := (153 * monthFromMarch + 2) / 5

/-- The number of the day, counted from 1970-01-01. -/
def dayNumber (d : Date) : Int :=
  let year := if d.month ≤ 2 then d.year - 1 else d.year
  let month : Int := if d.month ≤ 2 then d.month + 9 else (d.month : Int) - 3
  365 * year + year / 4 - year / 100 + year / 400 + daysBefore month + d.day - 1 - 719468

def ofDayNumber (n : Int) : Date :=
  let shifted := n + 719468
  let era := shifted / 146097
  let dayOfEra := shifted % 146097
  let yearOfEra :=
    (dayOfEra - dayOfEra / 1460 + dayOfEra / 36524 - dayOfEra / 146096) / 365
  let dayOfYear := dayOfEra - (365 * yearOfEra + yearOfEra / 4 - yearOfEra / 100)
  let monthFromMarch := (5 * dayOfYear + 2) / 153
  let day := dayOfYear - daysBefore monthFromMarch + 1
  let month := if monthFromMarch < 10 then monthFromMarch + 3 else monthFromMarch - 9
  let year := yearOfEra + era * 400
  ⟨if month ≤ 2 then year + 1 else year, month.toNat, day.toNat⟩

/-- The day of the week, counted from Monday. -/
def weekday (d : Date) : Nat := ((d.dayNumber + 3) % 7).toNat

end Date

end RecordMapping

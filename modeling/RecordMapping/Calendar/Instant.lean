import RecordMapping.Calendar.Date

/-!
# Instants

An instant is a number of seconds since 1970-01-01T00:00:00 in UTC and a number of nanoseconds. A
leap second shares the number of the second before it and has a billion nanoseconds more.
-/

namespace RecordMapping

structure Instant where
  seconds : Int
  nanos : Nat
  deriving DecidableEq

/-- A time of day; the sixtieth second is a leap second. -/
structure TimeOfDay where
  hour : Nat
  minute : Nat
  second : Nat
  nanos : Nat
  deriving DecidableEq

namespace TimeOfDay

def midnight : TimeOfDay := ⟨0, 0, 0, 0⟩

def isValid (t : TimeOfDay) : Bool :=
  decide (t.hour < 24) && decide (t.minute < 60) && decide (t.second ≤ 60) &&
    decide (t.nanos < 1000000000)

/-- Seconds since midnight; a leap second counts as the one before it. -/
def seconds (t : TimeOfDay) : Nat := t.hour * 3600 + t.minute * 60 + min t.second 59

end TimeOfDay

namespace Instant

def daySeconds : Int := 86400

def dateOf (seconds : Int) : Date := Date.ofDayNumber (seconds / daySeconds)

/-- Whether a second falls into the supported range of dates. -/
def inRange (seconds : Int) : Bool := (dateOf seconds).isValid

/-- The instant of a date and a time of day at an offset from UTC in seconds, if they are valid, the
offset is less than a day and the date in UTC is in range. -/
def ofLocal? (date : Date) (time : TimeOfDay) (offset : Int) : Option Instant :=
  let seconds := date.dayNumber * daySeconds + time.seconds - offset
  if date.isValid && time.isValid && decide (offset.natAbs < 86400) && inRange seconds then
    some ⟨seconds, time.nanos + if time.second = 60 then 1000000000 else 0⟩
  else none

/-- A number with at least so many digits. -/
def padded (width n : Nat) : List Char :=
  let digits := Nat.toDigits 10 n
  List.replicate (width - digits.length) '0' ++ digits

/-- A year has four digits, and a sign when it is negative or has more than four. -/
def yearText (year : Int) : List Char :=
  if 0 ≤ year ∧ year ≤ 9999 then padded 4 year.natAbs
  else (if year < 0 then '-' else '+') :: padded 4 year.natAbs

/-- A date as `YYYY-MM-DD`. -/
def dateText (d : Date) : List Char :=
  yearText d.year ++ '-' :: padded 2 d.month ++ '-' :: padded 2 d.day

def secondsDateText (seconds : Int) : List Char := dateText (dateOf seconds)

/-- The date and time of a second, as `YYYY-MM-DDTHH:MM:SS`. -/
def secondsText (seconds : Int) : List Char :=
  let ofDay := (seconds % daySeconds).toNat
  secondsDateText seconds ++ 'T' :: padded 2 (ofDay / 3600) ++
    ':' :: padded 2 (ofDay / 60 % 60) ++ ':' :: padded 2 (ofDay % 60)

end Instant

end RecordMapping

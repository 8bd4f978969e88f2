import RecordMapping.Calendar.Standards

/-!
# Reading a date of unknown form

The forms are tried in a fixed order: internet timestamps, mail headers, layouts with an offset,
layouts of date and time without one, read as UTC, and layouts of a date alone, read as midnight in
UTC. The first form that fits decides.
-/

namespace RecordMapping

namespace Calendar

/-- `year-month-day` with a separator. -/
def yearFirst (separator : Char) : Layout :=
  [.year, .literal separator, .month, .literal separator, .day]

/-- `month/day/year`. -/
def monthFirst : Layout := [.month, .literal '/', .day, .literal '/', .year]

/-- `day.month.year`. -/
def dayFirst : Layout := [.day, .literal '.', .month, .literal '.', .year]

/-- `hour:minute`. -/
def clock : Layout := [.hour, .literal ':', .minute]

/-- `hour:minute:second`. -/
def fullClock : Layout := clock ++ [.literal ':', .second]

def zonedLayouts : List Layout :=
  [yearFirst '-' ++ [.blank] ++ fullClock ++ [.offset],
    yearFirst '-' ++ [.blank] ++ fullClock ++ [.blank, .offset],
    yearFirst '-' ++ [.literal 'T'] ++ fullClock ++ [.offset]]

/-- Layouts of a date and a time without offset. -/
def localLayouts : List Layout :=
  [yearFirst '-' ++ [.literal 'T'] ++ fullClock,
    yearFirst '-' ++ [.blank] ++ fullClock,
    yearFirst '-' ++ [.literal 'T'] ++ fullClock ++ [.fraction],
    yearFirst '-' ++ [.blank] ++ fullClock ++ [.fraction],
    yearFirst '-' ++ [.literal 'T'] ++ clock,
    yearFirst '-' ++ [.blank] ++ clock,
    monthFirst ++ [.blank] ++ fullClock,
    monthFirst ++ [.blank] ++ clock,
    dayFirst ++ [.blank] ++ fullClock,
    dayFirst ++ [.blank] ++ clock]

def dateLayouts : List Layout :=
  [yearFirst '-', yearFirst '/', monthFirst, dayFirst,
    [.day, .blank, .longMonthName, .blank, .year],
    [.longMonthName, .blank, .day, .literal ',', .blank, .year],
    [.day, .blank, .shortMonthName, .blank, .year],
    [.shortMonthName, .blank, .day, .literal ',', .blank, .year]]

/-- The instant that a layout with an offset finds. -/
def zoned? (text : List Char) (layout : Layout) : Option Instant :=
  (layout.read? Parts.none text).bind (Parts.instant? none)

/-- The instant that a layout without offset finds. -/
def local? (text : List Char) (layout : Layout) : Option Instant :=
  (layout.read? Parts.none text).bind (Parts.instant? (some 0))

def date? (text : List Char) (layout : Layout) : Option Instant := do
  let date ← (← layout.read? Parts.none text).date?
  Instant.ofLocal? date TimeOfDay.midnight 0

/-- The instant that a text gives in any of the forms. -/
def instant? (text : List Char) : Option Instant :=
  let text := trim text
  if text.isEmpty then none
  else (timestamp? text).or <| (mailDate? text).or <|
    (zonedLayouts.findSome? (zoned? text)).or <| (localLayouts.findSome? (local? text)).or <|
      dateLayouts.findSome? (date? text)

end Calendar

end RecordMapping

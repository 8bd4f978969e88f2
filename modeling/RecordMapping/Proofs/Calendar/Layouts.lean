import RecordMapping.Proofs.Calendar.Shapes

/-!
# Writing dates in layouts

A date and a time of day are written in a layout with a year of four digits, other numbers of two
digits and English names of months. Main statements: a layout reads back what it writes, and so does
one with long names of months where short ones are written or without a fraction at the end; the
shape of what is written depends on the month alone.
-/

namespace RecordMapping

namespace Calendar

open Instant

def monthName (month : ℕ) : List Char :=
  match month with
  | 1 => "January".toList
  | 2 => "February".toList
  | 3 => "March".toList
  | 4 => "April".toList
  | 5 => "May".toList
  | 6 => "June".toList
  | 7 => "July".toList
  | 8 => "August".toList
  | 9 => "September".toList
  | 10 => "October".toList
  | 11 => "November".toList
  | _ => "December".toList

/-- What an item of a layout is written as. A whole second has no fraction. -/
def Item.text (d : Date) (t : TimeOfDay) : Item → List Char
  | .literal c => [c]
  | .blank => [' ']
  | .year => padded 4 d.year.natAbs
  | .month => padded 2 d.month
  | .day => padded 2 d.day
  | .hour => padded 2 t.hour
  | .minute => padded 2 t.minute
  | .second => padded 2 t.second
  | .fraction => []
  | .shortMonthName => (monthName d.month).take 3
  | .longMonthName => monthName d.month
  | .offset => "+00:00".toList

def Layout.write (layout : Layout) (d : Date) (t : TimeOfDay) : List Char :=
  layout.flatMap (Item.text d t)

def Item.fill (d : Date) (t : TimeOfDay) (parts : Parts) : Item → Parts
  | .year => { parts with year := some d.year }
  | .month | .shortMonthName | .longMonthName => { parts with month := some d.month }
  | .day => { parts with day := some d.day }
  | .hour => { parts with hour := some t.hour }
  | .minute => { parts with minute := some t.minute }
  | .second => { parts with second := some t.second }
  | .offset => { parts with offset := some 0 }
  | .literal _ | .blank | .fraction => parts

def Layout.fill (layout : Layout) (d : Date) (t : TimeOfDay) (parts : Parts) : Parts :=
  layout.foldl (Item.fill d t) parts

/-- Dates and times that layouts can write: the year has four digits, and the second is whole. -/
structure Writable (d : Date) (t : TimeOfDay) : Prop where
  date : d.isValid
  year : 0 ≤ d.year ∧ d.year ≤ 9999
  hour : t.hour < 24
  minute : t.minute < 60
  second : t.second < 60
  nanos : t.nanos = 0

variable {d : Date} {t : TimeOfDay} {parts : Parts} {item : Item} {layout reader : Layout}
  {rest : List Char}

lemma Writable.month (h : Writable d t) : 1 ≤ d.month ∧ d.month ≤ 12 :=
  (Date.isValid_iff.mp h.date).2.1

lemma Writable.day (h : Writable d t) : 1 ≤ d.day ∧ d.day ≤ 31 := by
  obtain ⟨-, -, hday⟩ := Date.isValid_iff.mp h.date
  exact ⟨hday.1, hday.2.trans (Date.monthLength_le d.year d.month)⟩

lemma shortMonth?_monthName {month : ℕ} (h : 1 ≤ month ∧ month ≤ 12) (rest : List Char) :
    shortMonth? ((monthName month).take 3 ++ rest) = some (month, rest) := by
  obtain ⟨hlow, hhigh⟩ := h
  interval_cases month <;> rfl

lemma longMonth?_monthName {month : ℕ} (h : 1 ≤ month ∧ month ≤ 12) (rest : List Char) :
    longMonth? (monthName month ++ rest) = some (month, rest) := by
  obtain ⟨hlow, hhigh⟩ := h
  interval_cases month <;> rfl

lemma longMonth?_shortName {month : ℕ} (h : 1 ≤ month ∧ month ≤ 12) (rest : List Char) :
    longMonth? ((monthName month).take 3 ++ ' ' :: rest) = some (month, ' ' :: rest) := by
  obtain ⟨hlow, hhigh⟩ := h
  interval_cases month <;> rfl

/-- Whether the text of an item starts with a digit or a letter. -/
def Item.isField : Item → Bool
  | .literal _ | .blank | .fraction | .offset => false
  | _ => true

lemma take?_field (h : Writable d t) (hitem : item.isField) (rest : List Char) :
    item.take? parts (item.text d t ++ rest) = some (item.fill d t parts, rest) := by
  have hyear : d.year.natAbs < 10 ^ 4 := by
    have hyear := h.year
    omega
  have hcast : (d.year.natAbs : ℤ) = d.year := by
    have hyear := h.year
    omega
  have hhour := h.hour
  have hminute := h.minute
  have hsecond := h.second
  cases item with
  | literal c | blank | fraction | offset => cases hitem
  | year =>
    rw [Item.take?, Item.text, skipBlank_padded, year?_padded hyear, hcast]
    rfl
  | month => exact take?_month h.month rest
  | day => exact take?_day h.day rest
  | hour => exact take?_hour (by omega) rest
  | minute => exact take?_minute (by omega) rest
  | second => exact take?_second (by omega) rest
  | shortMonthName =>
    rw [Item.take?, Item.text, shortMonth?_monthName h.month]
    rfl
  | longMonthName =>
    rw [Item.take?, Item.text, longMonth?_monthName h.month]
    rfl

lemma skipBlank_field (h : Writable d t) (hitem : item.isField) (rest : List Char) :
    skipBlank (' ' :: (item.text d t ++ rest)) = item.text d t ++ rest := by
  have hblank : skipBlank (' ' :: (item.text d t ++ rest)) = skipBlank (item.text d t ++ rest) :=
    rfl
  rw [hblank]
  cases item with
  | literal c | blank | fraction | offset => cases hitem
  | year | month | day | hour | minute | second => exact skipBlank_padded _ _ rest
  | shortMonthName | longMonthName =>
    obtain ⟨hlow, hhigh⟩ := h.month
    unfold Item.text
    interval_cases d.month <;> rfl

/-- Whether an item takes exactly what another one writes in front of a layout. Only the name of a
month need not be the same item. -/
def Item.takes (item other : Item) (layout : Layout) : Bool :=
  if item = other then
    match item with
    | .blank => layout.head?.any Item.isField
    | .fraction => layout.isEmpty
    | .offset => false
    | _ => true
  else item == .longMonthName && other == .shortMonthName && layout.head? == some .blank

/-- Whether a layout reads what another one writes. A fraction at the end is not written, so it may
be missing. -/
def Layout.takesBack : Layout → Layout → Bool
  | [], layout => layout == [] || layout == [.fraction]
  | _ :: _, [] => false
  | item :: reader, other :: layout => item.takes other layout && Layout.takesBack reader layout

lemma take?_write {other : Item} (htakes : item.takes other layout) (h : Writable d t)
    (parts : Parts) : item.take? parts (Layout.write (other :: layout) d t) =
      some (other.fill d t parts, layout.write d t) := by
  unfold Item.takes at htakes
  split_ifs at htakes with heq
  · subst heq
    cases item with
    | literal c => exact take?_literal c _
    | blank =>
      obtain ⟨next, hnext, hfield⟩ := (Option.any_eq_true _ _).mp htakes
      obtain ⟨layout, rfl⟩ := List.head?_eq_some_iff.mp hnext
      exact congrArg (fun rest => some (parts, rest)) (skipBlank_field h hfield _)
    | fraction =>
      obtain rfl := List.isEmpty_iff.mp htakes
      rfl
    | offset => cases htakes
    | year | month | day | hour | minute | second | shortMonthName | longMonthName =>
      exact take?_field h rfl _
  · simp only [Bool.and_eq_true, beq_iff_eq] at htakes
    obtain ⟨⟨rfl, rfl⟩, hblank⟩ := htakes
    obtain ⟨layout, rfl⟩ := List.head?_eq_some_iff.mp hblank
    have hname := longMonth?_shortName h.month (layout.flatMap (Item.text d t))
    simp only [Layout.write, List.flatMap_cons, Item.text, List.singleton_append, Item.take?, hname,
      Option.bind_eq_bind, Option.bind_some, Item.fill]
    rfl

theorem read?_write (htakes : reader.takesBack layout) (h : Writable d t) (parts : Parts) :
    reader.read? parts (layout.write d t) = some (layout.fill d t parts) := by
  induction reader generalizing layout parts with
  | nil =>
    simp only [Layout.takesBack, Bool.or_eq_true, beq_iff_eq] at htakes
    obtain rfl | rfl := htakes <;> rfl
  | cons item reader ih =>
    cases layout with
    | nil => cases htakes
    | cons other layout =>
      obtain ⟨hitem, hrest⟩ := Bool.and_eq_true_iff.mp htakes
      rw [read?_cons (take?_write hitem h parts)]
      exact ih hrest _

def Item.outline (month : ℕ) : Item → List Char
  | .literal c => [shapeChar c]
  | .blank => [' ']
  | .year => List.replicate 4 '0'
  | .month | .day | .hour | .minute | .second => List.replicate 2 '0'
  | .fraction => []
  | .shortMonthName => (monthName month).take 3
  | .longMonthName => monthName month
  | .offset => shape "+00:00".toList

def Layout.outline (layout : Layout) (month : ℕ) : List Char := layout.flatMap (Item.outline month)

lemma shape_padded {width n : ℕ} (hwidth : 0 < width) (h : n < 10 ^ width) :
    shape (padded width n) = List.replicate width '0' := by
  refine List.eq_replicate_iff.mpr ⟨(length_shape _).trans (length_padded hwidth h), fun c hc => ?_⟩
  obtain ⟨digit, hdigit, rfl⟩ := List.mem_map.mp hc
  exact if_pos (isDigit_of_mem_padded hdigit)

lemma shape_monthName {month : ℕ} (h : 1 ≤ month ∧ month ≤ 12) :
    shape (monthName month) = monthName month := by
  obtain ⟨hlow, hhigh⟩ := h
  interval_cases month <;> rfl

lemma shape_text (h : Writable d t) (item : Item) :
    shape (item.text d t) = item.outline d.month := by
  have hyear := h.year
  have hmonth := h.month
  have hday := h.day
  have hhour := h.hour
  have hminute := h.minute
  have hsecond := h.second
  cases item with
  | literal c | blank | fraction | offset => rfl
  | year => exact shape_padded (by decide) (by omega)
  | month | day | hour | minute | second => exact shape_padded (by decide) (by omega)
  | shortMonthName =>
    rw [Item.text, shape, List.map_take, ← shape, shape_monthName hmonth, Item.outline]
  | longMonthName => exact shape_monthName hmonth

lemma shape_write (h : Writable d t) (layout : Layout) :
    shape (layout.write d t) = layout.outline d.month := by
  rw [Layout.write, shape, List.map_flatMap, Layout.outline]
  exact List.flatMap_congr fun item _ => shape_text h item

end Calendar

end RecordMapping

import Mathlib
import RecordMapping.Calendar.Instant

/-!
# Days and dates

The date of a day number has this day number. An era of four hundred years is taken apart into
centuries, groups of four years and years, counted from March, and each year of an era is found
again by the quotient that the conversion takes. Main statements: the date of every day number
exists and has that number again, and the dates of the supported years are those of the seconds
between two bounds.
-/

namespace RecordMapping

namespace Date

/-- A day of an era is a day of a year of a group of four years of a century. Only the last year of
a group has a leap day, and that of the last group only in the last century. -/
structure Placed (dayOfEra century group year day : ℤ) : Prop where
  day_eq : dayOfEra = 36524 * century + 1461 * group + 365 * year + day
  century_mem : 0 ≤ century ∧ century ≤ 3
  group_mem : 0 ≤ group ∧ group ≤ 24
  year_mem : 0 ≤ year ∧ year ≤ 3
  day_mem : 0 ≤ day ∧ day ≤ 365
  leap : day = 365 → year = 3 ∧ (group = 24 → century = 3)

lemma exists_placed {dayOfEra : ℤ} (h : 0 ≤ dayOfEra ∧ dayOfEra ≤ 146096) :
    ∃ century group year day, Placed dayOfEra century group year day := by
  let century := min 3 (dayOfEra / 36524)
  let ofCentury := dayOfEra - 36524 * century
  let group := ofCentury / 1461
  let ofGroup := ofCentury - 1461 * group
  let year := min 3 (ofGroup / 365)
  refine ⟨century, group, year, ofGroup - 365 * year, ?_, ?_, ?_, ?_, ?_, ?_⟩
  all_goals omega

variable {dayOfEra century group year day : ℤ}

lemma Placed.year_eq (h : Placed dayOfEra century group year day) :
    (dayOfEra - dayOfEra / 1460 + dayOfEra / 36524 - dayOfEra / 146096) / 365 =
      100 * century + 4 * group + year := by
  obtain ⟨rfl, hcentury, hgroup, hyear, hday, hleap⟩ := h
  have hcenturies : (36524 * century + 1461 * group + 365 * year + day) / 36524 -
      (36524 * century + 1461 * group + 365 * year + day) / 146096 = century := by
    by_cases hlast : 1461 * group + 365 * year + day = 36524
    · omega
    · have hera : (36524 * century + 1461 * group + 365 * year + day) / 146096 = 0 := by omega
      rw [hera]
      omega
  obtain ⟨extra, hextra, hgroups⟩ : ∃ extra : ℤ,
      (extra = 0 ∨ extra = 1 ∧ 1460 ≤ 24 * century + group + 365 * year + day) ∧
      (36524 * century + 1461 * group + 365 * year + day) / 1460 =
        25 * century + group + extra := by
    refine ⟨(24 * century + group + 365 * year + day) / 1460, ?_, ?_⟩ <;> omega
  have hday : 0 ≤ day - extra ∧ day - extra ≤ 364 := by omega
  omega

lemma Placed.day_of_year (h : Placed dayOfEra century group year day) :
    dayOfEra - (365 * (100 * century + 4 * group + year) + (100 * century + 4 * group + year) / 4 -
      (100 * century + 4 * group + year) / 100) = day := by
  obtain ⟨rfl, hcentury, hgroup, hyear, hday, -⟩ := h
  omega

lemma dayNumber_of_parts {year month day : ℤ} (hmonth : 0 ≤ month ∧ month ≤ 11) (hday : 0 ≤ day) :
    dayNumber
        ⟨if (if month < 10 then month + 3 else month - 9) ≤ 2 then year + 1 else year,
          (if month < 10 then month + 3 else month - 9).toNat, day.toNat⟩ =
      365 * year + year / 4 - year / 100 + year / 400 + daysBefore month + day - 1 - 719468 := by
  have hcast : (day.toNat : ℤ) = day := Int.toNat_of_nonneg hday
  by_cases hlate : month < 10
  · have hafter : ¬ month + 3 ≤ 2 := by omega
    have hnat : ¬ (month + 3).toNat ≤ 2 := by omega
    have hback : ((month + 3).toNat : ℤ) - 3 = month := by omega
    simp only [dayNumber, if_pos hlate, if_neg hafter, if_neg hnat, hback, hcast]
  · have hafter : month - 9 ≤ 2 := by omega
    have hnat : (month - 9).toNat ≤ 2 := by omega
    have hback : ((month - 9).toNat : ℤ) + 9 = month := by omega
    simp only [dayNumber, if_neg hlate, if_pos hafter, if_pos hnat, hback, hcast,
      Int.add_sub_cancel]

lemma month_mem (h : 0 ≤ day ∧ day ≤ 365) :
    0 ≤ (5 * day + 2) / 153 ∧ (5 * day + 2) / 153 ≤ 11 := by
  omega

lemma daysBefore_month_le (day : ℤ) : daysBefore ((5 * day + 2) / 153) ≤ day := by
  unfold daysBefore
  omega

lemma Placed.dayNumber_eq (h : Placed dayOfEra century group year day) (era month : ℤ) :
    365 * (100 * century + 4 * group + year + era * 400) +
        (100 * century + 4 * group + year + era * 400) / 4 -
        (100 * century + 4 * group + year + era * 400) / 100 +
        (100 * century + 4 * group + year + era * 400) / 400 + daysBefore month +
        (day - daysBefore month + 1) - 1 - 719468 = dayOfEra + 146097 * era - 719468 := by
  obtain ⟨rfl, hcentury, hgroup, hyear, -, -⟩ := h
  have hfours : (100 * century + 4 * group + year + era * 400) / 4 =
      25 * century + group + 100 * era := by omega
  have hhundreds : (100 * century + 4 * group + year + era * 400) / 100 = century + 4 * era := by
    omega
  have heras : (100 * century + 4 * group + year + era * 400) / 400 = era := by omega
  rw [hfours, hhundreds, heras]
  ring

theorem dayNumber_ofDayNumber (n : ℤ) : (ofDayNumber n).dayNumber = n := by
  have hera : 0 ≤ (n + 719468) % 146097 ∧ (n + 719468) % 146097 ≤ 146096 := by omega
  obtain ⟨century, group, year, day, h⟩ := exists_placed hera
  have hday : 0 ≤ day - daysBefore ((5 * day + 2) / 153) + 1 := by
    have hbefore := daysBefore_month_le day
    linarith
  unfold ofDayNumber
  simp only [h.year_eq, h.day_of_year]
  rw [dayNumber_of_parts (month_mem h.day_mem) hday, h.dayNumber_eq, Int.emod_add_mul_ediv]
  exact Int.add_sub_cancel n 719468

lemma Placed.isLeap (h : Placed dayOfEra century group year day) (hday : day = 365) (era : ℤ) :
    isLeap (100 * century + 4 * group + year + era * 400 + 1) := by
  obtain ⟨-, hcentury, hgroup, -, -, hleap⟩ := h
  obtain ⟨rfl, hlast⟩ := hleap hday
  simp only [Date.isLeap, Bool.and_eq_true, Bool.or_eq_true, beq_iff_eq, bne_iff_ne]
  omega

lemma parts_mem {year day month : ℤ} (hday : 0 ≤ day ∧ day ≤ 365)
    (hleap : day = 365 → Date.isLeap (year + 1)) (hmonth : month = (5 * day + 2) / 153) :
    (1 ≤ (if month < 10 then month + 3 else month - 9).toNat ∧
      (if month < 10 then month + 3 else month - 9).toNat ≤ 12) ∧
    1 ≤ (day - daysBefore month + 1).toNat ∧
      (day - daysBefore month + 1).toNat ≤
        monthLength
          (if (if month < 10 then month + 3 else month - 9) ≤ 2 then year + 1 else year)
          (if month < 10 then month + 3 else month - 9).toNat := by
  have hmem : 0 ≤ month ∧ month ≤ 11 := hmonth ▸ month_mem hday
  have hbounds : 153 * month ≤ 5 * day + 2 ∧ 5 * day + 2 ≤ 153 * month + 152 := by omega
  clear hmonth
  obtain ⟨hlow, hhigh⟩ := hmem
  interval_cases month
  case «11» =>
    have hfebruary : monthLength (year + 1) 2 = if Date.isLeap (year + 1) then 29 else 28 := rfl
    by_cases hlong : day = 365
    · subst hlong
      simp [daysBefore, hfebruary, hleap rfl]
    · simp [daysBefore, hfebruary]
      split_ifs <;> omega
  all_goals
    simp [monthLength, daysBefore]
    omega

theorem ofDayNumber_mem (n : ℤ) :
    (1 ≤ (ofDayNumber n).month ∧ (ofDayNumber n).month ≤ 12) ∧ 1 ≤ (ofDayNumber n).day ∧
      (ofDayNumber n).day ≤ monthLength (ofDayNumber n).year (ofDayNumber n).month := by
  have hera : 0 ≤ (n + 719468) % 146097 ∧ (n + 719468) % 146097 ≤ 146096 := by omega
  obtain ⟨century, group, year, day, h⟩ := exists_placed hera
  unfold ofDayNumber
  simp only [h.year_eq, h.day_of_year]
  exact parts_mem h.day_mem (fun hday => h.isLeap hday _) rfl

lemma monthLength_le (year : ℤ) (month : ℕ) : monthLength year month ≤ 31 := by
  unfold monthLength
  split_ifs <;> omega

def yearStart (year : ℤ) : ℤ := dayNumber ⟨year, 1, 1⟩

lemma yearStart_eq (year : ℤ) : yearStart year =
    365 * (year - 1) + (year - 1) / 4 - (year - 1) / 100 + (year - 1) / 400 + 306 - 719468 := by
  simp only [yearStart, dayNumber, daysBefore]
  norm_num

lemma yearStart_lt (year : ℤ) : yearStart year < yearStart (year + 1) := by
  rw [yearStart_eq, yearStart_eq]
  omega

lemma strictMono_yearStart : StrictMono yearStart := strictMono_int_of_lt_succ yearStart_lt

lemma dayNumber_mem_year {d : Date} (hmonth : 1 ≤ d.month ∧ d.month ≤ 12)
    (hday : 1 ≤ d.day ∧ d.day ≤ 31) :
    yearStart d.year ≤ d.dayNumber ∧ d.dayNumber < yearStart (d.year + 1) := by
  rw [yearStart_eq, yearStart_eq, Int.add_sub_cancel]
  have hleap : 0 ≤ d.year / 400 - (d.year - 1) / 400 ∧
      0 ≤ d.year / 4 - (d.year - 1) / 4 - (d.year / 100 - (d.year - 1) / 100) := by omega
  simp only [dayNumber]
  split_ifs with hearly
  · have hbefore : daysBefore ((d.month : ℤ) + 9) = 275 + 31 * d.month := by
      unfold daysBefore
      omega
    omega
  · have hbefore : 0 ≤ daysBefore ((d.month : ℤ) - 3) ∧ daysBefore ((d.month : ℤ) - 3) ≤ 275 := by
      unfold daysBefore
      omega
    omega

lemma year_mem_iff {d : Date} (hmonth : 1 ≤ d.month ∧ d.month ≤ 12)
    (hday : 1 ≤ d.day ∧ d.day ≤ 31) (first last : ℤ) :
    (first ≤ d.year ∧ d.year ≤ last) ↔
      (yearStart first ≤ d.dayNumber ∧ d.dayNumber < yearStart (last + 1)) := by
  obtain ⟨hstart, hend⟩ := dayNumber_mem_year hmonth hday
  have hmono := strictMono_yearStart
  constructor
  · rintro ⟨hfirst, hlast⟩
    exact ⟨(hmono.monotone hfirst).trans hstart, hend.trans_le (hmono.monotone (by omega))⟩
  · rintro ⟨hfirst, hlast⟩
    exact ⟨Int.lt_add_one_iff.mp (hmono.lt_iff_lt.mp (hfirst.trans_lt hend)),
      Int.lt_add_one_iff.mp (hmono.lt_iff_lt.mp (hstart.trans_lt hlast))⟩

lemma isValid_iff {d : Date} : d.isValid ↔ (firstYear ≤ d.year ∧ d.year ≤ lastYear) ∧
    (1 ≤ d.month ∧ d.month ≤ 12) ∧ 1 ≤ d.day ∧ d.day ≤ monthLength d.year d.month := by
  simp [isValid, and_assoc]

end Date

namespace Instant

/-- The first second of the supported dates, -262143-01-01T00:00:00. -/
def firstSecond : ℤ := -8334601228800

/-- The last second of the supported dates, +262142-12-31T23:59:59. -/
def lastSecond : ℤ := 8210266876799

theorem inRange_iff {seconds : ℤ} :
    inRange seconds ↔ firstSecond ≤ seconds ∧ seconds ≤ lastSecond := by
  obtain ⟨hmonth, hday⟩ := Date.ofDayNumber_mem (seconds / daySeconds)
  have hyears := Date.year_mem_iff hmonth ⟨hday.1, hday.2.trans (Date.monthLength_le _ _)⟩
    Date.firstYear Date.lastYear
  have hfirst : Date.yearStart Date.firstYear = -96465292 := by decide
  have hlast : Date.yearStart (Date.lastYear + 1) = 95026237 := by decide
  have hbounds : -96465292 ≤ seconds / daySeconds ∧ seconds / daySeconds < 95026237 ↔
      firstSecond ≤ seconds ∧ seconds ≤ lastSecond := by
    unfold daySeconds firstSecond lastSecond
    omega
  rw [hfirst, hlast, Date.dayNumber_ofDayNumber, hbounds] at hyears
  rw [inRange, Date.isValid_iff, ← hyears]
  exact and_iff_left ⟨hmonth, hday⟩

def timeOf (seconds : ℤ) : TimeOfDay :=
  let ofDay := (seconds % daySeconds).toNat
  ⟨ofDay / 3600, ofDay / 60 % 60, ofDay % 60, 0⟩

lemma timeOf_mem (seconds : ℤ) : (timeOf seconds).hour ≤ 23 ∧ (timeOf seconds).minute ≤ 59 ∧
    (timeOf seconds).second ≤ 59 := by
  simp only [timeOf, daySeconds]
  omega

lemma timeOf_isValid (seconds : ℤ) : (timeOf seconds).isValid := by
  have hmem := timeOf_mem seconds
  have hnanos : (timeOf seconds).nanos = 0 := rfl
  simp only [TimeOfDay.isValid, hnanos, Bool.and_eq_true, decide_eq_true_eq]
  omega

lemma seconds_timeOf (seconds : ℤ) : ((timeOf seconds).seconds : ℤ) = seconds % daySeconds := by
  simp only [TimeOfDay.seconds, timeOf, daySeconds]
  omega

lemma dayNumber_dateOf (seconds : ℤ) : (dateOf seconds).dayNumber = seconds / daySeconds :=
  Date.dayNumber_ofDayNumber _

lemma inRange_midnight {seconds : ℤ} (h : inRange seconds) :
    inRange (daySeconds * (seconds / daySeconds)) := by
  have hday : daySeconds * (seconds / daySeconds) / daySeconds = seconds / daySeconds :=
    Int.mul_ediv_cancel_left _ (by decide)
  rwa [inRange, dateOf, hday]

lemma ofLocal?_zero {date : Date} {time : TimeOfDay} {seconds : ℤ} (hdate : date.isValid)
    (htime : time.isValid) (hsecond : time.second ≤ 59) (hnanos : time.nanos = 0)
    (hseconds : date.dayNumber * daySeconds + time.seconds = seconds) (hrange : inRange seconds) :
    ofLocal? date time 0 = some ⟨seconds, 0⟩ := by
  have hleap : time.second ≠ 60 := by omega
  simp [ofLocal?, hdate, htime, hseconds, hrange, hleap, hnanos]

theorem ofLocal?_timeOf {seconds : ℤ} (h : inRange seconds) :
    ofLocal? (dateOf seconds) (timeOf seconds) 0 = some ⟨seconds, 0⟩ := by
  refine ofLocal?_zero h (timeOf_isValid seconds) (timeOf_mem seconds).2.2 rfl ?_ h
  rw [dayNumber_dateOf, seconds_timeOf, Int.mul_comm, Int.mul_ediv_add_emod]

theorem ofLocal?_midnight {seconds : ℤ} (h : inRange seconds) :
    ofLocal? (dateOf seconds) TimeOfDay.midnight 0 =
      some ⟨daySeconds * (seconds / daySeconds), 0⟩ := by
  refine ofLocal?_zero h (by decide) (by decide) rfl ?_ (inRange_midnight h)
  rw [dayNumber_dateOf, Int.mul_comm]
  exact Int.add_zero _

end Instant

end RecordMapping

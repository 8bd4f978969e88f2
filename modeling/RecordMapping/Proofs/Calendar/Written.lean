import Mathlib
import RecordMapping.Calendar.Reading
import RecordMapping.Proofs.Calendar.Days
import RecordMapping.Proofs.Json.Layouts

namespace RecordMapping

namespace Instant

lemma isDigit_of_mem_padded {width n : ℕ} {c : Char} (h : c ∈ padded width n) : c.isDigit := by
  obtain h | h := List.mem_append.mp h
  · obtain rfl := (List.mem_replicate.mp h).2
    decide
  · exact isDigit_of_mem_toDigits h

lemma digitsValue_padded (width n : ℕ) : digitsValue (padded width n) = n := by
  rw [padded, digitsValue_replicate_append, digitsValue, Nat.ofDigitChars_ten_toDigits]

lemma le_length_padded (width n : ℕ) : width ≤ (padded width n).length := by
  simp [padded]
  omega

lemma length_padded {width n : ℕ} (hwidth : 0 < width) (h : n < 10 ^ width) :
    (padded width n).length = width := by
  have hle := Nat.toDigits_length 10 n width hwidth h
  simp [padded]
  omega

lemma exists_padded (width n : ℕ) : ∃ c rest, padded width n = c :: rest ∧ c.isDigit := by
  cases hcase : padded width n with
  | nil => simp [padded, Nat.toDigits_ne_nil] at hcase
  | cons c rest => exact ⟨c, rest, rfl, isDigit_of_mem_padded (hcase ▸ List.mem_cons_self)⟩

end Instant

namespace Calendar

open Instant

/-- Digits are read as a number, if there are enough of them and either the most that can be read or
no further one follows. -/
lemma number?_append {least most : ℕ} {digits rest : List Char} (hall : ∀ c ∈ digits, c.isDigit)
    (hleast : least ≤ digits.length) (hmost : digits.length ≤ most)
    (hrest : digits.length = most ∨ ∀ c ∈ rest.head?, c.isDigit = false) :
    number? least most (digits ++ rest) = some (digitsValue digits, rest) := by
  have hstop : (rest.take (most - digits.length)).takeWhile Char.isDigit = [] := by
    obtain hfull | hend := hrest
    · simp [hfull]
    · cases rest with
      | nil => simp
      | cons c rest => cases most - digits.length <;> simp [hend c rfl]
  have htaken : ((digits ++ rest).take most).takeWhile Char.isDigit = digits := by
    rw [List.take_append, List.take_of_length_le hmost, List.takeWhile_append_of_pos hall, hstop,
      List.append_nil]
  simp only [number?, htaken, List.drop_left, if_neg (not_lt.mpr hleast)]

lemma number?_padded (least : ℕ) {width n : ℕ} (hwidth : 0 < width) (h : n < 10 ^ width)
    (hleast : least ≤ width) (rest : List Char) :
    number? least width (padded width n ++ rest) = some (n, rest) := by
  have hlength := length_padded hwidth h
  rw [number?_append (fun c => isDigit_of_mem_padded) (by omega) (by omega) (.inl hlength),
    digitsValue_padded]

lemma skipBlank_cons {c : Char} (h : isBlank c = false) (rest : List Char) :
    skipBlank (c :: rest) = c :: rest := by
  simp [skipBlank, h]

lemma skipBlank_padded (width n : ℕ) (rest : List Char) :
    skipBlank (padded width n ++ rest) = padded width n ++ rest := by
  obtain ⟨c, more, hpadded, hc⟩ := exists_padded width n
  rw [hpadded]
  exact skipBlank_cons (Json.isBlank_of_isNumeralChar (by simp [isNumeralChar, hc])) _

lemma shortNumber?_padded {low high n : ℕ} (h : low ≤ n ∧ n ≤ high) (hhigh : high < 100)
    (rest : List Char) : shortNumber? low high (padded 2 n ++ rest) = some (n, rest) := by
  have hn : n < 10 ^ 2 := by omega
  have hnumber := number?_padded 1 (by decide) hn (by decide) rest
  simp [shortNumber?, skipBlank_padded, hnumber, h]

lemma year?_padded {n : ℕ} (h : n < 10 ^ 4) (rest : List Char) :
    year? (padded 4 n ++ rest) = some ((n : ℤ), rest) := by
  have hnumber := number?_padded 1 (by decide) h (by decide) rest
  obtain ⟨c, more, hpadded, hc⟩ := exists_padded 4 n
  obtain ⟨hminus, hplus⟩ := ne_sign_of_isDigit hc
  rw [hpadded, List.cons_append] at hnumber ⊢
  simp [year?, hminus, hplus, hnumber]

lemma year?_yearText {year : ℤ} (h : (year.natAbs : ℤ) < signedEnd) {rest : List Char}
    (hrest : ∀ c ∈ rest.head?, c.isDigit = false) :
    year? (yearText year ++ rest) = some (year, rest) := by
  unfold yearText
  split
  · rename_i hfour
    have hcast : (year.natAbs : ℤ) = year := by omega
    rw [year?_padded (by omega), hcast]
  · have hlong : longNumber? 1 (padded 4 year.natAbs ++ rest) = some (year.natAbs, rest) := by
      have hlength := le_length_padded 4 year.natAbs
      rw [longNumber?, number?_append (fun c => isDigit_of_mem_padded) (by omega) (by simp)
        (.inr hrest), digitsValue_padded]
      simp only [if_pos h]
    split
    · have hcast : -(year.natAbs : ℤ) = year := by omega
      simp only [List.cons_append, year?, hlong, Option.map_some, hcast]
    · have hcast : (year.natAbs : ℤ) = year := by omega
      simp only [List.cons_append, year?, hlong, Option.map_some, hcast]

lemma read?_cons {item : Item} {layout : Layout} {parts found : Parts} {text rest : List Char}
    (h : item.take? parts text = some (found, rest)) :
    Layout.read? (item :: layout) parts text = layout.read? found rest := by
  rw [Layout.read?, h]

lemma read?_cons_none {item : Item} {layout : Layout} {parts : Parts} {text : List Char}
    (h : item.take? parts text = none) : Layout.read? (item :: layout) parts text = none := by
  rw [Layout.read?, h]

variable {parts : Parts} {layout : Layout}

lemma take?_year {year : ℤ} (h : (year.natAbs : ℤ) < signedEnd) {rest : List Char}
    (hrest : ∀ c ∈ rest.head?, c.isDigit = false) :
    Item.year.take? parts (yearText year ++ rest) =
      some ({ parts with year := some year }, rest) := by
  have hskip : skipBlank (yearText year ++ rest) = yearText year ++ rest := by
    unfold yearText
    split_ifs
    · exact skipBlank_padded 4 _ rest
    · exact skipBlank_cons (by decide) _
    · exact skipBlank_cons (by decide) _
  simp [Item.take?, hskip, year?_yearText h hrest]

lemma take?_literal (c : Char) (rest : List Char) :
    (Item.literal c).take? parts (c :: rest) = some (parts, rest) := by
  simp [Item.take?, char?]

lemma take?_month {n : ℕ} (h : 1 ≤ n ∧ n ≤ 12) (rest : List Char) :
    Item.month.take? parts (padded 2 n ++ rest) = some ({ parts with month := some n }, rest) := by
  simp [Item.take?, shortNumber?_padded h]

lemma take?_day {n : ℕ} (h : 1 ≤ n ∧ n ≤ 31) (rest : List Char) :
    Item.day.take? parts (padded 2 n ++ rest) = some ({ parts with day := some n }, rest) := by
  simp [Item.take?, shortNumber?_padded h]

lemma take?_hour {n : ℕ} (h : n ≤ 23) (rest : List Char) :
    Item.hour.take? parts (padded 2 n ++ rest) = some ({ parts with hour := some n }, rest) := by
  simp [Item.take?, shortNumber?_padded ⟨Nat.zero_le n, h⟩]

lemma take?_minute {n : ℕ} (h : n ≤ 59) (rest : List Char) :
    Item.minute.take? parts (padded 2 n ++ rest) =
      some ({ parts with minute := some n }, rest) := by
  simp [Item.take?, shortNumber?_padded ⟨Nat.zero_le n, h⟩]

lemma take?_second {n : ℕ} (h : n ≤ 60) (rest : List Char) :
    Item.second.take? parts (padded 2 n ++ rest) =
      some ({ parts with second := some n }, rest) := by
  simp [Item.take?, shortNumber?_padded ⟨Nat.zero_le n, h⟩]

/-- The time of day as `HH:MM:SS`. -/
def clockText (t : TimeOfDay) : List Char :=
  padded 2 t.hour ++ ':' :: (padded 2 t.minute ++ ':' :: padded 2 t.second)

lemma read?_yearFirst {d : Date} (h : d.isValid) (rest : List Char) :
    Layout.read? (yearFirst '-' ++ layout) parts (dateText d ++ rest) =
      layout.read? { parts with year := some d.year, month := some d.month, day := some d.day }
        rest := by
  obtain ⟨hyear, hmonth, hday⟩ := Date.isValid_iff.mp h
  have hlong : (d.year.natAbs : ℤ) < signedEnd := by
    simp only [Date.firstYear, Date.lastYear, signedEnd] at hyear ⊢
    omega
  have hshort : 1 ≤ d.day ∧ d.day ≤ 31 :=
    ⟨hday.1, hday.2.trans (Date.monthLength_le d.year d.month)⟩
  simp only [yearFirst, dateText, List.cons_append, List.nil_append, List.append_assoc]
  rw [read?_cons (take?_year hlong (by simp)), read?_cons (take?_literal _ _),
    read?_cons (take?_month hmonth _), read?_cons (take?_literal _ _),
    read?_cons (take?_day hshort _)]

lemma read?_fullClock {t : TimeOfDay} (h : t.isValid) (rest : List Char) :
    Layout.read? (fullClock ++ layout) parts (clockText t ++ rest) =
      layout.read?
        { parts with hour := some t.hour, minute := some t.minute, second := some t.second }
        rest := by
  simp only [TimeOfDay.isValid, Bool.and_eq_true, decide_eq_true_eq] at h
  obtain ⟨⟨⟨hhour, hminute⟩, hsecond⟩, -⟩ := h
  simp only [fullClock, clock, clockText, List.cons_append, List.nil_append, List.append_assoc]
  rw [read?_cons (take?_hour (by omega) _), read?_cons (take?_literal _ _),
    read?_cons (take?_minute (by omega) _), read?_cons (take?_literal _ _),
    read?_cons (take?_second hsecond _)]

end Calendar

end RecordMapping

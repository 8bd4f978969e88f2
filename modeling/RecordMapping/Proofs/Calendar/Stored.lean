import RecordMapping.Proofs.Calendar.Written
import RecordMapping.Proofs.Text.Runs

/-!
# Reading stored dates

A second is stored as a date, or as a date and a time of day with a `T` between them. Neither is a
number, and every form of dates that is tried before its own one fails on it: it has no offset, and
what it starts with is too long for a day or a month. Main statement: a stored date and time is read
as its second, and a stored date as the first second of its day.
-/

namespace RecordMapping

namespace Calendar

open Instant

lemma secondsText_eq (seconds : ℤ) :
    secondsText seconds = dateText (dateOf seconds) ++ 'T' :: clockText (timeOf seconds) := by
  simp [secondsText, secondsDateText, clockText, timeOf]

/-- A text that starts with a sign or with three digits. -/
inductive StartsLong : List Char → Prop where
  | sign {c : Char} (h : c = '-' ∨ c = '+') (rest : List Char) : StartsLong (c :: rest)
  | digits {a b c : Char} (ha : a.isDigit) (hb : b.isDigit) (hc : c.isDigit) (rest : List Char) :
      StartsLong (a :: b :: c :: rest)

lemma startsLong_padded (n : ℕ) (rest : List Char) : StartsLong (padded 4 n ++ rest) := by
  have hlength := le_length_padded 4 n
  have hdigits : ∀ c ∈ padded 4 n, c.isDigit := fun c => isDigit_of_mem_padded
  match hcase : padded 4 n with
  | [] | [_] | [_, _] => simp [hcase] at hlength
  | a :: b :: c :: more =>
    rw [hcase] at hdigits
    exact .digits (hdigits a (by simp)) (hdigits b (by simp)) (hdigits c (by simp)) _

lemma startsLong_dateText (d : Date) (rest : List Char) : StartsLong (dateText d ++ rest) := by
  simp only [dateText, List.append_assoc]
  unfold yearText
  split_ifs
  · exact startsLong_padded _ _
  · exact .sign (.inl rfl) _
  · exact .sign (.inr rfl) _

variable {text : List Char}

lemma StartsLong.head (h : StartsLong text) :
    ∃ c rest, text = c :: rest ∧ isNumeralChar c ∧ c.toNat ≤ 57 := by
  cases h with
  | @sign c h rest => exact ⟨c, rest, rfl, by obtain rfl | rfl := h <;> decide⟩
  | @digits a b c ha hb hc rest =>
    exact ⟨a, _, rfl, by simp [isNumeralChar, ha], (Json.toNat_of_isDigit ha).2⟩

lemma StartsLong.skipBlank_eq (h : StartsLong text) : skipBlank text = text := by
  obtain ⟨c, rest, rfl, hc, -⟩ := h.head
  exact skipBlank_cons (Json.isBlank_of_isNumeralChar hc) rest

/-- If one or two digits are read of such a text, a further digit follows. -/
lemma StartsLong.number?_eq (h : StartsLong text) :
    number? 1 2 text = none ∨ ∃ n c rest, number? 1 2 text = some (n, c :: rest) ∧ c.isDigit := by
  cases h with
  | sign h rest =>
    obtain rfl | rfl := h
    · exact .inl rfl
    · exact .inl rfl
  | @digits a b c ha hb hc rest =>
    refine .inr ⟨digitsValue [a, b], c, rest, ?_, hc⟩
    simp [number?, ha, hb]

lemma splitSign_dateText (d : Date) (rest : List Char) :
    ∃ negative digits more, splitSign (dateText d ++ rest) = (negative, digits ++ '-' :: more) ∧
      ∀ c ∈ digits, c.isDigit := by
  have hdigits : ∀ c ∈ padded 4 d.year.natAbs, c.isDigit := fun c => isDigit_of_mem_padded
  simp only [dateText, List.append_assoc]
  unfold yearText
  split_ifs
  · obtain ⟨c, more, hpadded, hc⟩ := exists_padded 4 d.year.natAbs
    refine ⟨false, padded 4 d.year.natAbs, padded 2 d.month ++ ('-' :: padded 2 d.day ++ rest), ?_,
      hdigits⟩
    rw [hpadded]
    exact splitSign_of_isDigit hc _
  · exact ⟨true, padded 4 d.year.natAbs, _, rfl, hdigits⟩
  · exact ⟨false, padded 4 d.year.natAbs, _, rfl, hdigits⟩

lemma integer?_dateText (d : Date) (rest : List Char) :
    Numeral.integer? (dateText d ++ rest) = none := by
  obtain ⟨negative, digits, more, hsign, -⟩ := splitSign_dateText d rest
  simp [Numeral.integer?, hsign]

lemma float?_dateText (d : Date) (rest : List Char) :
    Numeral.float? (dateText d ++ rest) = none := by
  obtain ⟨negative, digits, more, hsign, hdigits⟩ := splitSign_dateText d rest
  have hsplit : splitDigits (digits ++ '-' :: more) = (digits, '-' :: more) :=
    splitDigits_of_all hdigits (by simp)
  have hexponent : Numeral.exponent? ('-' :: more) = none := by simp [Numeral.exponent?]
  simp [Numeral.float?, hsign, hsplit, hexponent]

lemma toLower_of_le {c : Char} (h : c.toNat ≤ 57) : c.toLower = c := by
  unfold Char.toLower
  rw [dif_neg]
  rintro ⟨hlow, -⟩
  rw [ge_iff_le, UInt32.le_iff_toNat_le] at hlow
  exact absurd (hlow.trans h) (by decide)

lemma firstWord?_eq_none {c : Char} (hc : c.toNat ≤ 57) (rest : List Char)
    {words : List (List Char)} (hwords : ∀ word ∈ words, word.head?.any fun d => 97 ≤ d.toNat)
    (place : ℕ) : firstWord? place words (c :: rest) = none := by
  induction words generalizing place with
  | nil => rfl
  | cons word words ih =>
    obtain ⟨hword, hothers⟩ := List.forall_mem_cons.mp hwords
    obtain ⟨d, hhead, hd⟩ := (Option.any_eq_true _ _).mp hword
    obtain ⟨more, rfl⟩ := List.head?_eq_some_iff.mp hhead
    have hne : c ≠ d := by
      rintro rfl
      exact absurd (of_decide_eq_true hd) (by omega)
    simp [firstWord?, word?, toLower_of_le hc, hne, ih hothers]

lemma StartsLong.mailDate?_eq (h : StartsLong text) : mailDate? text = none := by
  obtain ⟨c, rest, htext, -, hc⟩ := h.head
  have hweekday : mailWeekday? text = some (none, text) := by
    have hwords := @firstWord?_eq_none c hc rest weekdayNames (by decide) 0
    rw [← htext] at hwords
    rw [mailWeekday?, hwords]
  rw [mailDate?, h.skipBlank_eq, hweekday]
  change (number? 1 2 (skipBlank text)).bind _ = none
  rw [h.skipBlank_eq]
  obtain hnone | ⟨n, d, more, hsome, hd⟩ := h.number?_eq
  · rw [hnone, Option.bind_none]
  · have hblank : isBlank d = false := Json.isBlank_of_isNumeralChar (by simp [isNumeralChar, hd])
    rw [hsome]
    change (blanks? (d :: more)).bind _ = none
    rw [blanks?, hblank]
    rfl

/-- What follows a stored date: nothing, or a time of day. -/
inductive Ending : List Char → Prop where
  | date : Ending []
  | datetime {t : TimeOfDay} (h : t.isValid) : Ending ('T' :: clockText t)

lemma fixedNumber?_padded {low high n : ℕ} (h : low ≤ n ∧ n ≤ high) (hhigh : high < 100)
    (rest : List Char) : fixedNumber? 2 low high (padded 2 n ++ rest) = some (n, rest) := by
  have hn : n < 10 ^ 2 := by omega
  simp [fixedNumber?, number?_padded 2 (by decide) hn (by decide) rest, h]

/-- What an internet timestamp gives from behind its date on. -/
def timestampClock? (year : ℤ) (month day : ℕ) (text : List Char) : Option Instant := do
  let (hour, text) ← fixedNumber? 2 0 23 (← timeMark? text)
  let (minute, text) ← fixedNumber? 2 0 59 (← colon? text)
  let (second, text) ← fixedNumber? 2 0 60 (← colon? text)
  let (nanos, text) ← optionalFraction? text
  let (offset, text) ← timestampOffset? text
  if text.isEmpty then
    Parts.instant? none ⟨some year, month, day, hour, minute, second, nanos, offset, none⟩
  else none

lemma timestamp?_eq (text : List Char) : timestamp? text = (do
    let (year, text) ← number? 4 4 text
    let (month, text) ← fixedNumber? 2 1 12 (← char? '-' text)
    let (day, text) ← fixedNumber? 2 1 31 (← char? '-' text)
    timestampClock? year month day text) :=
  rfl

lemma timestampClock?_eq_none {rest : List Char} (h : Ending rest) (year : ℤ) (month day : ℕ) :
    timestampClock? year month day rest = none := by
  cases h with
  | date => rfl
  | @datetime t ht =>
    simp only [TimeOfDay.isValid, Bool.and_eq_true, decide_eq_true_eq] at ht
    obtain ⟨⟨⟨hhour, hminute⟩, hsecond⟩, -⟩ := ht
    have hlast := @fixedNumber?_padded 0 60 t.second ⟨Nat.zero_le _, hsecond⟩ (by decide) []
    have hbefore : 0 ≤ t.minute ∧ t.minute ≤ 59 := by omega
    have hfirst : 0 ≤ t.hour ∧ t.hour ≤ 23 := by omega
    rw [List.append_nil] at hlast
    simp only [timestampClock?, clockText, timeMark?, true_or, if_true, colon?, char?,
      Option.bind_eq_bind, Option.bind_some, fixedNumber?_padded hfirst (by decide),
      fixedNumber?_padded hbefore (by decide), hlast]
    rfl

lemma timestamp?_dateText {d : Date} (hd : d.isValid) {rest : List Char} (h : Ending rest) :
    timestamp? (dateText d ++ rest) = none := by
  obtain ⟨-, hmonth, hday⟩ := Date.isValid_iff.mp hd
  have hshort : 1 ≤ d.day ∧ d.day ≤ 31 :=
    ⟨hday.1, hday.2.trans (Date.monthLength_le d.year d.month)⟩
  simp only [dateText, List.append_assoc]
  unfold yearText
  split_ifs with hfour
  · have hyear : d.year.natAbs < 10 ^ 4 := by omega
    have hnumber := number?_padded 4 (by decide) hyear (by decide)
    simp only [timestamp?_eq, hnumber, List.cons_append, char?, if_true, Option.bind_eq_bind,
      Option.bind_some, fixedNumber?_padded hmonth (by decide),
      fixedNumber?_padded hshort (by decide), timestampClock?_eq_none h]
  · rfl
  · rfl

lemma zoned?_dateText {d : Date} (hd : d.isValid) {rest : List Char} (h : Ending rest) :
    zonedLayouts.findSome? (zoned? (dateText d ++ rest)) = none := by
  simp only [zonedLayouts, zoned?, List.findSome?_cons, List.append_assoc, read?_yearFirst hd]
  cases h with
  | date => rfl
  | @datetime t ht =>
    have hclock (parts : Parts) :
        Layout.read? ([.literal 'T'] ++ (fullClock ++ [.offset])) parts ('T' :: clockText t) =
          none := by
      rw [List.singleton_append, read?_cons (take?_literal _ _), ← List.append_nil (clockText t),
        read?_fullClock ht]
      rfl
    rw [hclock]
    rfl

lemma StartsLong.take?_eq (h : StartsLong text) {item : Item} (hitem : item = .month ∨ item = .day)
    (parts : Parts) : item.take? parts text = none ∨
      ∃ found c rest, item.take? parts text = some (found, c :: rest) ∧ c.isDigit := by
  have hshort (low high : ℕ) : shortNumber? low high text = none ∨
      ∃ n c rest, shortNumber? low high text = some (n, c :: rest) ∧ c.isDigit := by
    obtain hnone | ⟨n, c, rest, hsome, hc⟩ := h.number?_eq
    · simp [shortNumber?, h.skipBlank_eq, hnone]
    · by_cases hbounds : low ≤ n ∧ n ≤ high
      · exact .inr ⟨n, c, rest, by simp [shortNumber?, h.skipBlank_eq, hsome, hbounds], hc⟩
      · exact .inl (by simp [shortNumber?, h.skipBlank_eq, hsome, hbounds])
  obtain rfl | rfl := hitem
  · obtain hnone | ⟨n, c, rest, hsome, hc⟩ := hshort 1 12
    · exact .inl (by simp [Item.take?, hnone])
    · exact .inr ⟨{ parts with month := some n }, c, rest, by simp [Item.take?, hsome], hc⟩
  · obtain hnone | ⟨n, c, rest, hsome, hc⟩ := hshort 1 31
    · exact .inl (by simp [Item.take?, hnone])
    · exact .inr ⟨{ parts with day := some n }, c, rest, by simp [Item.take?, hsome], hc⟩

lemma StartsLong.read?_eq_none (h : StartsLong text) {item : Item}
    (hitem : item = .month ∨ item = .day) {separator : Char}
    (hseparator : separator.isDigit = false) (layout : Layout) (parts : Parts) :
    Layout.read? (item :: .literal separator :: layout) parts text = none := by
  obtain hnone | ⟨found, c, rest, hsome, hc⟩ := h.take?_eq hitem parts
  · exact read?_cons_none hnone
  · have hne : c ≠ separator := by
      rintro rfl
      simp [hc] at hseparator
    rw [read?_cons hsome, read?_cons_none (by simp [Item.take?, char?, hne])]

lemma local?_dateText {d : Date} (hd : d.isValid) :
    localLayouts.findSome? (local? (dateText d)) = none := by
  have hstart : StartsLong (dateText d) := List.append_nil (dateText d) ▸ startsLong_dateText d []
  have hyearFirst (layout : Layout) (parts : Parts) :
      Layout.read? (yearFirst '-' ++ layout) parts (dateText d) =
        layout.read? { parts with year := some d.year, month := some d.month, day := some d.day }
          [] := by
    rw [← List.append_nil (dateText d), read?_yearFirst hd]
  have hmonthFirst (layout : Layout) (parts : Parts) :
      Layout.read? (monthFirst ++ layout) parts (dateText d) = none :=
    hstart.read?_eq_none (.inl rfl) (by decide) _ parts
  have hdayFirst (layout : Layout) (parts : Parts) :
      Layout.read? (dayFirst ++ layout) parts (dateText d) = none :=
    hstart.read?_eq_none (.inr rfl) (by decide) _ parts
  simp only [localLayouts, local?, List.findSome?_cons, List.append_assoc, hyearFirst, hmonthFirst,
    hdayFirst]
  rfl

lemma local?_secondsText {seconds : ℤ} (h : inRange seconds) :
    local? (secondsText seconds) (yearFirst '-' ++ [.literal 'T'] ++ fullClock) =
      some ⟨seconds, 0⟩ := by
  have ht := timeOf_isValid seconds
  have hdate : (dateOf seconds).isValid := h
  have hclock (parts : Parts) : Layout.read? fullClock parts (clockText (timeOf seconds)) =
      some { parts with
        hour := some (timeOf seconds).hour
        minute := some (timeOf seconds).minute
        second := some (timeOf seconds).second } := by
    rw [← List.append_nil fullClock, ← List.append_nil (clockText _), read?_fullClock ht]
    rfl
  have htime : (⟨(timeOf seconds).hour, (timeOf seconds).minute, (timeOf seconds).second, 0⟩ :
      TimeOfDay) = timeOf seconds := rfl
  rw [local?, secondsText_eq, List.append_assoc, read?_yearFirst hdate, List.singleton_append,
    read?_cons (take?_literal _ _), hclock, Option.bind_some, Parts.instant?]
  simp only [Parts.date?, Parts.time?, Parts.none, Option.bind_eq_bind, Option.bind_some,
    Option.getD_some, Option.getD_none, Option.all_none, htime, ht, hdate, if_true,
    Option.none_or, Bool.and_true]
  exact ofLocal?_timeOf h

lemma date?_secondsDateText {seconds : ℤ} (h : inRange seconds) :
    date? (secondsDateText seconds) (yearFirst '-') =
      some ⟨daySeconds * (seconds / daySeconds), 0⟩ := by
  have hdate : (dateOf seconds).isValid := h
  rw [date?, secondsDateText, ← List.append_nil (yearFirst '-'),
    ← List.append_nil (dateText _), read?_yearFirst hdate]
  simp [Layout.read?, Parts.date?, Parts.none, hdate, ofLocal?_midnight h]

lemma isBlank_of_mem_padded {width n : ℕ} : ∀ c ∈ padded width n, isBlank c = false :=
  fun _ h => Json.isBlank_of_isNumeralChar (by simp [isNumeralChar, isDigit_of_mem_padded h])

lemma isBlank_of_mem_dateText (d : Date) : ∀ c ∈ dateText d, isBlank c = false := by
  have hyear : ∀ c ∈ yearText d.year, isBlank c = false := by
    unfold yearText
    split_ifs
    · exact isBlank_of_mem_padded
    · exact List.forall_mem_cons.mpr ⟨by decide, isBlank_of_mem_padded⟩
    · exact List.forall_mem_cons.mpr ⟨by decide, isBlank_of_mem_padded⟩
  simp only [dateText, List.forall_mem_append, List.forall_mem_cons]
  exact ⟨⟨hyear, by decide, isBlank_of_mem_padded⟩, by decide, isBlank_of_mem_padded⟩

lemma isBlank_of_mem_clockText (t : TimeOfDay) : ∀ c ∈ clockText t, isBlank c = false := by
  simp only [clockText, List.forall_mem_append, List.forall_mem_cons]
  exact ⟨isBlank_of_mem_padded, by decide, isBlank_of_mem_padded, by decide, isBlank_of_mem_padded⟩

lemma isBlank_of_mem_stored (d : Date) {rest : List Char} (h : Ending rest) :
    ∀ c ∈ dateText d ++ rest, isBlank c = false := by
  refine List.forall_mem_append.mpr ⟨isBlank_of_mem_dateText d, ?_⟩
  cases h with
  | date => exact List.forall_mem_nil _
  | datetime ht => exact List.forall_mem_cons.mpr ⟨by decide, isBlank_of_mem_clockText _⟩

lemma instant?_stored {d : Date} (hd : d.isValid) {rest : List Char} (h : Ending rest) :
    instant? (dateText d ++ rest) =
      (localLayouts.findSome? (local? (dateText d ++ rest))).or
        (dateLayouts.findSome? (date? (dateText d ++ rest))) := by
  have hempty : (dateText d ++ rest).isEmpty = false := by simp [dateText]
  simp only [instant?, trim_of_forall (isBlank_of_mem_stored d h), hempty,
    timestamp?_dateText hd h, (startsLong_dateText d rest).mailDate?_eq, zoned?_dateText hd h,
    Option.none_or, if_false, Bool.false_eq_true]

theorem instant?_secondsText {seconds : ℤ} (h : inRange seconds) :
    instant? (secondsText seconds) = some ⟨seconds, 0⟩ := by
  have hlocal := local?_secondsText h
  rw [secondsText_eq] at hlocal ⊢
  rw [instant?_stored h (.datetime (timeOf_isValid seconds)), localLayouts,
    List.findSome?_cons_of_isSome, hlocal]
  · rfl
  · rw [hlocal]
    rfl

theorem instant?_secondsDateText {seconds : ℤ} (h : inRange seconds) :
    instant? (secondsDateText seconds) = some ⟨daySeconds * (seconds / daySeconds), 0⟩ := by
  have hdate := date?_secondsDateText h
  have hstored := instant?_stored h .date
  rw [List.append_nil] at hstored
  rw [secondsDateText] at hdate ⊢
  rw [hstored, local?_dateText h, Option.none_or, dateLayouts, List.findSome?_cons_of_isSome, hdate]
  rw [hdate]
  rfl

end Calendar

end RecordMapping

import RecordMapping.Proofs.Calendar.Forms
import RecordMapping.Proofs.Calendar.Layouts

/-!
# Written dates are read in their own form

Every form that is tried before the form of a layout either refuses the shape of what is written in
the layout or reads the same parts from it, which is decided for each pair of forms. Main statement:
a date or a date and time in a layout gives the instant that was written, and no form that is tried
earlier reads another one.
-/

namespace RecordMapping

namespace Calendar

open Instant

variable {d : Date} {t : TimeOfDay} {parts : Parts} {layout reader : Layout}

namespace Form

/-- The layout in which a form without offset is written. -/
def layout? : Form → Option Layout
  | .unzoned layout | .dated layout => some layout
  | _ => none

/-- The instant that is written: a date is midnight, and a time without seconds has none. -/
def instant (d : Date) (t : TimeOfDay) : Form → Instant
  | .unzoned layout =>
    let second := if Item.second ∈ layout then t.second else 0
    ⟨d.dayNumber * 86400 + (t.hour * 3600 + t.minute * 60 + second : ℕ), 0⟩
  | _ => ⟨d.dayNumber * 86400, 0⟩

/-- Whether a form reads what another one writes, as the same parts. -/
def takesBack : Form → Form → Bool
  | .unzoned reader, .unzoned layout => reader.takesBack layout
  | .dated reader, .dated layout => reader.takesBack layout
  | _, _ => false

end Form

lemma Writable.month_mem (h : Writable d t) : d.month ∈ List.range' 1 12 := by
  have hmonth := h.month
  rw [List.mem_range'_1]
  omega

lemma Writable.ofLocal?_eq (h : Writable d t) {hour minute second : ℕ} (hhour : hour < 24)
    (hminute : minute < 60) (hsecond : second < 60) : ofLocal? d ⟨hour, minute, second, 0⟩ 0 =
      some ⟨d.dayNumber * 86400 + (hour * 3600 + minute * 60 + second : ℕ), 0⟩ := by
  obtain ⟨hfirst, hlast⟩ := (Date.year_mem_iff h.month h.day 0 9999).mp h.year
  have hstart : Date.yearStart 0 = -719528 := by decide
  have hend : Date.yearStart (9999 + 1) = 2932897 := by decide
  rw [hstart] at hfirst
  rw [hend] at hlast
  apply ofLocal?_zero h.date
  · simp only [TimeOfDay.isValid, Bool.and_eq_true, decide_eq_true_eq]
    omega
  · exact Nat.le_of_lt_succ hsecond
  · rfl
  · simp only [TimeOfDay.seconds, daySeconds]
    omega
  · rw [inRange_iff]
    unfold firstSecond lastSecond
    omega

lemma fill_dated (hlayout : layout ∈ dateLayouts) : layout.fill d t Parts.none =
    { Parts.none with year := some d.year, month := some d.month, day := some d.day } := by
  simp only [dateLayouts, List.mem_cons, List.not_mem_nil, or_false] at hlayout
  obtain rfl | rfl | rfl | rfl | rfl | rfl | rfl | rfl := hlayout <;> rfl

lemma fill_unzoned (hlayout : layout ∈ localLayouts) : layout.fill d t Parts.none =
    { Parts.none with
      year := some d.year, month := some d.month, day := some d.day, hour := some t.hour
      minute := some t.minute
      second := if Item.second ∈ layout then some t.second else none } := by
  simp only [localLayouts, List.mem_cons, List.not_mem_nil, or_false] at hlayout
  obtain rfl | rfl | rfl | rfl | rfl | rfl | rfl | rfl | rfl | rfl := hlayout <;> rfl

lemma date?_of_parts (hdate : d.isValid) (hyear : parts.year = some d.year)
    (hmonth : parts.month = some d.month) (hday : parts.day = some d.day)
    (hweekday : parts.weekday = none) : parts.date? = some d := by
  simp [Parts.date?, hyear, hmonth, hday, hweekday, hdate]

lemma date?_write (h : Writable d t) (hlayout : layout ∈ dateLayouts)
    (htakes : reader.takesBack layout) :
    date? (layout.write d t) reader = some ⟨d.dayNumber * 86400, 0⟩ := by
  have hdate : Parts.date?
      { Parts.none with year := some d.year, month := some d.month, day := some d.day } = some d :=
    date?_of_parts h.date rfl rfl rfl rfl
  have hmidnight := @Writable.ofLocal?_eq d t h 0 0 0 (by decide) (by decide) (by decide)
  rw [date?, read?_write htakes h, fill_dated hlayout, Option.bind_eq_bind, Option.bind_some, hdate,
    Option.bind_eq_bind, Option.bind_some]
  have hzero : d.dayNumber * 86400 + (0 * 3600 + 0 * 60 + 0 : ℕ) = d.dayNumber * 86400 :=
    Int.add_zero _
  rwa [hzero] at hmidnight

lemma local?_write (h : Writable d t) (hlayout : layout ∈ localLayouts)
    (htakes : reader.takesBack layout) :
    local? (layout.write d t) reader = some (Form.instant d t (.unzoned layout)) := by
  obtain ⟨second, hsecond⟩ :
      ∃ second, (if Item.second ∈ layout then t.second else 0) = second := ⟨_, rfl⟩
  have hbound : second < 60 := by
    have hbound := h.second
    split_ifs at hsecond <;> omega
  have hinstant := h.ofLocal?_eq h.hour h.minute hbound
  have hvalid : TimeOfDay.isValid ⟨t.hour, t.minute, second, 0⟩ := by
    have hhour := h.hour
    have hminute := h.minute
    simp only [TimeOfDay.isValid, Bool.and_eq_true, decide_eq_true_eq]
    omega
  have hparts : ((if Item.second ∈ layout then some t.second else none).getD 0) = second := by
    rw [← hsecond]
    split_ifs <;> rfl
  rw [local?, read?_write htakes h, fill_unzoned hlayout, Option.bind_some, Parts.instant?,
    date?_of_parts h.date rfl rfl rfl rfl]
  simp only [Parts.time?, Parts.none, hparts, hvalid, Option.getD_none, Option.bind_eq_bind,
    Option.bind_some, if_true, Option.none_or, hinstant, Form.instant, hsecond]

namespace Form

variable {form earlier : Form}

lemma read?_write (h : Writable d t) (hform : form ∈ forms) (hlayout : form.layout? = some layout)
    (htakes : earlier.takesBack form) :
    earlier.read? (layout.write d t) = some (form.instant d t) := by
  simp only [forms, List.mem_append, List.mem_map] at hform
  cases form with
  | timestamp | mail | zoned other => cases hlayout
  | unzoned other =>
    obtain rfl := Option.some.inj hlayout
    cases earlier with
    | timestamp | mail | zoned reader | dated reader => cases htakes
    | unzoned reader =>
      have hmem : other ∈ localLayouts := by simpa using hform
      exact local?_write h hmem htakes
  | dated other =>
    obtain rfl := Option.some.inj hlayout
    cases earlier with
    | timestamp | mail | zoned reader | unzoned reader => cases htakes
    | dated reader =>
      have hmem : other ∈ dateLayouts := by simpa using hform
      exact date?_write h hmem htakes

/-- Whether what a form writes in any month is refused by another form or read as the same parts. -/
def clearOf (form earlier : Form) : Bool :=
  form.layout?.all fun layout => (List.range' 1 12).all fun month =>
    earlier.refuses (layout.outline month) || earlier.takesBack form

/-- Whether a form reads what it writes, and what it writes has no blanks at its ends. -/
def takesWhole (form : Form) : Bool :=
  form.layout?.all fun layout => form.takesBack form && (List.range' 1 12).all fun month =>
    (layout.outline month).head?.any (!isBlank ·) &&
      (layout.outline month).getLast?.any (!isBlank ·)

end Form

/-- No form is in the way of a later one. -/
theorem forms_pairwise : forms.Pairwise fun earlier form => form.clearOf earlier := by
  decide +kernel

lemma takesWhole_of_mem : ∀ form ∈ forms, form.takesWhole := by
  decide +kernel

lemma read?_of_clearOf {form earlier : Form} (h : Writable d t) (hform : form ∈ forms)
    (hlayout : form.layout? = some layout) (hclear : form.clearOf earlier) :
    earlier.read? (layout.write d t) = none ∨
      earlier.read? (layout.write d t) = some (form.instant d t) := by
  rw [Form.clearOf, hlayout, Option.all_some, List.all_eq_true] at hclear
  have hmonth := hclear d.month h.month_mem
  obtain hrefuses | htakes := (Bool.or_eq_true _ _).mp hmonth
  · rw [← shape_write h] at hrefuses
    exact .inl (Form.read?_of_refuses hrefuses)
  · exact .inr (Form.read?_write h hform hlayout htakes)

lemma trim_write {form : Form} (h : Writable d t) (hform : form ∈ forms)
    (hlayout : form.layout? = some layout) :
    trim (layout.write d t) = layout.write d t ∧ layout.write d t ≠ [] ∧ form.takesBack form := by
  have hwhole := takesWhole_of_mem form hform
  rw [Form.takesWhole, hlayout, Option.all_some, Bool.and_eq_true_iff, List.all_eq_true] at hwhole
  obtain ⟨htakes, hmonths⟩ := hwhole
  have hends := hmonths d.month h.month_mem
  rw [← shape_write h, shape, List.head?_map, List.getLast?_map, Bool.and_eq_true_iff] at hends
  obtain ⟨hfirst, hlast⟩ := hends
  simp only [Option.any_map, isBlank_shapeChar] at hfirst hlast
  obtain ⟨first, hhead, hfirst⟩ := (Option.any_eq_true _ _).mp hfirst
  obtain ⟨last, hend, hlast⟩ := (Option.any_eq_true _ _).mp hlast
  refine ⟨trim_of_ends ?_ ?_, ?_, htakes⟩
  · rw [hhead]
    rintro _ ⟨⟩
    simpa using hfirst
  · rw [hend]
    rintro _ ⟨⟩
    simpa using hlast
  · intro hnil
    rw [hnil] at hhead
    cases hhead

/-- The first reading of a text decides if no earlier one differs. -/
lemma findSome?_eq {α β : Type} {f : α → Option β} {before after : List α} {a : α} {b : β}
    (hbefore : ∀ earlier ∈ before, f earlier = none ∨ f earlier = some b) (ha : f a = some b) :
    (before ++ a :: after).findSome? f = some b := by
  induction before with
  | nil => rw [List.nil_append, List.findSome?_cons, ha]
  | cons earlier before ih =>
    obtain ⟨hearlier, hothers⟩ := List.forall_mem_cons.mp hbefore
    rw [List.cons_append, List.findSome?_cons]
    obtain hnone | hsome := hearlier
    · rw [hnone]
      exact ih hothers
    · rw [hsome]

lemma instant?_write_form {before after : List Form} {form : Form} (h : Writable d t)
    (hforms : forms = before ++ form :: after) (hlayout : form.layout? = some layout) :
    instant? (layout.write d t) = some (form.instant d t) ∧
      ∀ earlier ∈ before, earlier.read? (layout.write d t) = none ∨
        earlier.read? (layout.write d t) = some (form.instant d t) := by
  have hform : form ∈ forms := hforms ▸ List.mem_append_right before List.mem_cons_self
  have hbefore : ∀ earlier ∈ before, earlier.read? (layout.write d t) = none ∨
      earlier.read? (layout.write d t) = some (form.instant d t) := by
    intro earlier hearlier
    have hpairs := forms_pairwise
    rw [hforms] at hpairs
    exact read?_of_clearOf h hform hlayout
      ((List.pairwise_append.mp hpairs).2.2 earlier hearlier form List.mem_cons_self)
  refine ⟨?_, hbefore⟩
  obtain ⟨htrim, hne, htakes⟩ := trim_write h hform hlayout
  have hempty : (layout.write d t).isEmpty = false := List.isEmpty_eq_false_iff.mpr hne
  rw [instant?_eq, htrim, hempty, hforms]
  exact findSome?_eq hbefore (Form.read?_write h hform hlayout htakes)

/-- A date in any layout is read as its midnight, and a date and time as its second, the seconds
being zero where the layout has none. Of the forms that are tried before the form of the layout,
none reads the text as another instant. -/
theorem instant?_write (h : Writable d t) (layout : Layout) :
    (layout ∈ dateLayouts →
      instant? (layout.write d t) = some ⟨d.dayNumber * 86400, 0⟩ ∧
      ∀ before after, forms = before ++ .dated layout :: after → ∀ earlier ∈ before,
        earlier.read? (layout.write d t) = none ∨
          earlier.read? (layout.write d t) = some ⟨d.dayNumber * 86400, 0⟩) ∧
    (layout ∈ localLayouts →
      let second := if Item.second ∈ layout then t.second else 0
      let instant : Instant :=
        ⟨d.dayNumber * 86400 + (t.hour * 3600 + t.minute * 60 + second : ℕ), 0⟩
      instant? (layout.write d t) = some instant ∧
      ∀ before after, forms = before ++ .unzoned layout :: after → ∀ earlier ∈ before,
        earlier.read? (layout.write d t) = none ∨
          earlier.read? (layout.write d t) = some instant) := by
  constructor
  · intro hlayout
    have hform : Form.dated layout ∈ forms := by simp [forms, hlayout]
    obtain ⟨before, after, hsplit⟩ := List.append_of_mem hform
    exact ⟨(instant?_write_form h hsplit rfl).1,
      fun before after hforms => (instant?_write_form h hforms rfl).2⟩
  · intro hlayout
    have hform : Form.unzoned layout ∈ forms := by simp [forms, hlayout]
    obtain ⟨before, after, hsplit⟩ := List.append_of_mem hform
    exact ⟨(instant?_write_form h hsplit rfl).1,
      fun before after hforms => (instant?_write_form h hforms rfl).2⟩

/-- A date in the layout of its day and the short name of its month, which the layout with the long
name reads first, and the last second of a leap day in the year zero. -/
theorem instant?_write_leapDay :
    Layout.write [.day, .blank, .shortMonthName, .blank, .year] ⟨2023, 9, 5⟩ .midnight =
      "05 Sep 2023".toList ∧
    instant? "05 Sep 2023".toList = some ⟨1693872000, 0⟩ ∧
    (Form.dated [.day, .blank, .longMonthName, .blank, .year]).read? "05 Sep 2023".toList =
      some ⟨1693872000, 0⟩ ∧
    Layout.write (dayFirst ++ [.blank] ++ fullClock) ⟨0, 2, 29⟩ ⟨23, 59, 59, 0⟩ =
      "29.02.0000 23:59:59".toList ∧
    instant? "29.02.0000 23:59:59".toList = some ⟨-62162035201, 0⟩ := by
  have hdate : Writable ⟨2023, 9, 5⟩ .midnight :=
    ⟨by decide, by decide, by decide, by decide, by decide, rfl⟩
  have hleap : Writable ⟨0, 2, 29⟩ ⟨23, 59, 59, 0⟩ :=
    ⟨by decide, by decide, by decide, by decide, by decide, rfl⟩
  have hshort := (instant?_write hdate [.day, .blank, .shortMonthName, .blank, .year]).1 (by decide)
  have htime := (instant?_write hleap (dayFirst ++ [.blank] ++ fullClock)).2 (by decide)
  have hshortText : Layout.write [.day, .blank, .shortMonthName, .blank, .year] ⟨2023, 9, 5⟩
      .midnight = "05 Sep 2023".toList := by decide +kernel
  have htimeText : Layout.write (dayFirst ++ [.blank] ++ fullClock) ⟨0, 2, 29⟩ ⟨23, 59, 59, 0⟩ =
      "29.02.0000 23:59:59".toList := by decide +kernel
  rw [hshortText] at hshort
  rw [htimeText] at htime
  exact ⟨hshortText, hshort.1.trans (by decide), by decide +kernel, htimeText,
    htime.1.trans (by decide)⟩

end Calendar

end RecordMapping

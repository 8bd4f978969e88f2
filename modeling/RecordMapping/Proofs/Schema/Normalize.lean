import RecordMapping.Proofs.Calendar.Stored
import RecordMapping.Schema.Normalize

/-!
# Normal forms

A date and time is stored with its second, and a date with the first second of its day. What is in
the normal form of a kind of property is kept, and normalizing gives such a value. Main statement:
the stored form of a date keeps its instant, and normalizing once more changes nothing.
-/

namespace RecordMapping

lemma clampToSigned_clampToSigned (n : ℤ) : clampToSigned (clampToSigned n) = clampToSigned n := by
  simp only [clampToSigned, signedEnd]
  omega

lemma clampToSigned_of_mem {n : ℤ} (h : -signedEnd ≤ n ∧ n < signedEnd) : clampToSigned n = n := by
  simp only [clampToSigned, signedEnd] at h ⊢
  omega

lemma fitsWord_of_clampToSigned {n : ℤ} (h : clampToSigned n = n) : FitsWord n := by
  simp only [clampToSigned, signedEnd, FitsWord, wordEnd] at h ⊢
  omega

lemma Number.toSigned_ofInt {n : ℤ} (h : clampToSigned n = n) : (ofInt n).toSigned = n := by
  rw [ofInt, dif_pos (fitsWord_of_clampToSigned h), toSigned, h]

lemma Number.clampToSigned_toSigned (n : Number) : clampToSigned n.toSigned = n.toSigned := by
  cases n <;> exact clampToSigned_clampToSigned _

lemma Numeral.clampToSigned_of_integer? {text : List Char} {n : ℤ} (h : integer? text = some n) :
    clampToSigned n = n := by
  simp only [integer?, Option.ite_none_left_eq_some, Option.some.injEq, Bool.or_eq_true,
    not_or, ne_eq, decide_eq_true_eq, not_not] at h
  obtain ⟨⟨-, hclamp⟩, rfl⟩ := h
  exact hclamp.symm

namespace Calendar

def Ranged (found : Option Instant) : Prop := ∀ i ∈ found, Instant.inRange i.seconds

lemma ranged_none : Ranged none := fun _ h => absurd h (Option.not_mem_none _)

lemma Ranged.bind {α : Type} {x : Option α} {f : α → Option Instant} (h : ∀ a, Ranged (f a)) :
    Ranged (x >>= f) := by
  rintro i hi
  obtain ⟨a, -, ha⟩ := Option.bind_eq_some_iff.mp hi
  exact h a i ha

lemma Ranged.or {found other : Option Instant} (h : Ranged found) (hother : Ranged other) :
    Ranged (found.or other) := by
  cases found with
  | none => exact hother
  | some i => exact h

lemma Ranged.findSome? {form : Layout → Option Instant} (h : ∀ layout, Ranged (form layout))
    (layouts : List Layout) : Ranged (layouts.findSome? form) := by
  rintro i hi
  obtain ⟨layout, -, hlayout⟩ := List.exists_of_findSome?_eq_some hi
  exact h layout i hlayout

lemma ranged_ofLocal? (date : Date) (time : TimeOfDay) (offset : ℤ) :
    Ranged (Instant.ofLocal? date time offset) := by
  unfold Instant.ofLocal?
  dsimp only
  split
  · rename_i h
    rintro i ⟨⟩
    simp only [Bool.and_eq_true] at h
    exact h.2
  · exact ranged_none

lemma ranged_ofParts (offset : Option ℤ) (parts : Parts) : Ranged (parts.instant? offset) :=
  .bind fun _ => .bind fun _ => .bind fun _ => ranged_ofLocal? _ _ _

lemma ranged_timestamp? (text : List Char) : Ranged (timestamp? text) := by
  refine .bind fun ⟨year, _⟩ => .bind fun _ => .bind fun ⟨month, _⟩ => .bind fun _ =>
    .bind fun ⟨day, _⟩ => .bind fun _ => .bind fun ⟨hour, _⟩ => .bind fun _ =>
    .bind fun ⟨minute, _⟩ => .bind fun _ => .bind fun ⟨second, _⟩ => .bind fun ⟨nanos, _⟩ =>
    .bind fun ⟨offset, _⟩ => ?_
  dsimp only
  split_ifs
  · exact ranged_ofParts _ _
  · exact ranged_none

lemma ranged_mailDate? (text : List Char) : Ranged (mailDate? text) := by
  refine .bind fun ⟨weekday, _⟩ => .bind fun ⟨day, _⟩ => .bind fun _ => .bind fun ⟨month, _⟩ =>
    .bind fun _ => .bind fun ⟨year, _⟩ => .bind fun _ => .bind fun ⟨hour, _⟩ => .bind fun _ =>
    .bind fun ⟨minute, _⟩ => .bind fun ⟨second, _⟩ => .bind fun _ => .bind fun ⟨offset, _⟩ => ?_
  dsimp only
  split_ifs
  · exact ranged_ofParts _ _
  · exact ranged_none

theorem ranged_instant? (text : List Char) : Ranged (instant? text) := by
  unfold instant?
  dsimp only
  split_ifs
  · exact ranged_none
  · exact (ranged_timestamp? _).or <| (ranged_mailDate? _).or <|
      (Ranged.findSome? (fun _ => .bind fun _ => ranged_ofParts _ _) _).or <|
      (Ranged.findSome? (fun _ => .bind fun _ => ranged_ofParts _ _) _).or <|
      Ranged.findSome? (fun _ => .bind fun _ => .bind fun _ => ranged_ofLocal? _ _ _) _

end Calendar

namespace Normalize

open Instant

lemma clampToSigned_of_inRange {seconds : ℤ} (h : inRange seconds) :
    clampToSigned seconds = seconds := by
  have hrange := inRange_iff.mp h
  refine clampToSigned_of_mem ?_
  simp only [firstSecond, lastSecond, signedEnd] at hrange ⊢
  omega

lemma clampToSigned_of_textTimestamp? {text : String} {seconds : ℤ}
    (h : textTimestamp? text = some seconds) : clampToSigned seconds = seconds := by
  simp only [textTimestamp?, Option.or_eq_some_iff, Option.map_eq_some_iff] at h
  obtain hinteger | ⟨-, ⟨x, -, rfl⟩ | ⟨-, i, hi, rfl⟩⟩ := h
  · exact Numeral.clampToSigned_of_integer? hinteger
  · exact clampToSigned_clampToSigned _
  · exact clampToSigned_of_inRange (Calendar.ranged_instant? _ i hi)

lemma clampToSigned_of_timestamp? {value : Json} {seconds : ℤ}
    (h : timestamp? value = some seconds) : clampToSigned seconds = seconds := by
  cases value with
  | number n =>
    obtain rfl := Option.some.inj h
    exact n.clampToSigned_toSigned
  | string s => exact clampToSigned_of_textTimestamp? h
  | null => cases h
  | bool b => cases h
  | list items => cases h
  | object members => cases h

lemma clampToSigned_of_toInteger? {value : Json} {n : ℤ} (h : toInteger? value = some n) :
    clampToSigned n = n := by
  cases value with
  | number m =>
    obtain rfl := Option.some.inj h
    exact m.clampToSigned_toSigned
  | string s =>
    simp only [toInteger?, Option.or_eq_some_iff, Option.map_eq_some_iff] at h
    obtain hinteger | ⟨-, x, -, rfl⟩ := h
    · exact Numeral.clampToSigned_of_integer? hinteger
    · exact clampToSigned_clampToSigned _
  | bool b =>
    obtain rfl := Option.some.inj h
    cases b <;> rfl
  | null => cases h
  | list items => cases h
  | object members => cases h

def storedSecond (seconds : ℤ) : DateForm → ℤ
  | .date => daySeconds * (seconds / daySeconds)
  | .datetime => seconds

lemma isSome_dateText? (form : DateForm) (seconds : ℤ) :
    (dateText? form seconds).isSome = inRange seconds := by
  unfold dateText?
  split
  · rename_i h
    exact h.symm
  · rename_i h
    exact (Bool.eq_false_of_not_eq_true h).symm

lemma textTimestamp?_dateText (d : Date) {rest : List Char} (h : Calendar.Ending rest) :
    textTimestamp? (String.ofList (Instant.dateText d ++ rest)) =
      (Calendar.instant? (Instant.dateText d ++ rest)).map Instant.seconds := by
  simp only [textTimestamp?, String.toList_ofList,
    trim_of_forall (Calendar.isBlank_of_mem_stored d h), Calendar.integer?_dateText,
    Calendar.float?_dateText, Option.map_none, Option.none_or]

theorem textTimestamp?_of_dateText? {form : DateForm} {seconds : ℤ} {text : String}
    (h : dateText? form seconds = some text) :
    textTimestamp? text = some (storedSecond seconds form) := by
  obtain ⟨hrange, htext⟩ := Option.ite_none_right_eq_some.mp h
  obtain rfl := Option.some.inj htext
  cases form with
  | date =>
    have hread := Calendar.instant?_secondsDateText hrange
    have hstored := textTimestamp?_dateText (dateOf seconds) .date
    rw [List.append_nil] at hstored
    rw [secondsDateText] at hread ⊢
    rw [hstored, hread]
    rfl
  | datetime =>
    have hread := Calendar.instant?_secondsText hrange
    have hstored := textTimestamp?_dateText (dateOf seconds) (.datetime (timeOf_isValid seconds))
    rw [Calendar.secondsText_eq] at hread ⊢
    rw [hstored, hread]
    rfl

lemma dateText?_storedSecond (form : DateForm) (seconds : ℤ) :
    dateText? form (storedSecond seconds form) = dateText? form seconds := by
  cases form with
  | date =>
    have hday : dateOf (storedSecond seconds .date) = dateOf seconds := by
      have hdays : daySeconds * (seconds / daySeconds) / daySeconds = seconds / daySeconds :=
        Int.mul_ediv_cancel_left _ (by decide)
      rw [storedSecond, dateOf, hdays, dateOf]
    have hrange : inRange (storedSecond seconds .date) = inRange seconds := by
      rw [inRange, hday, inRange]
    rw [dateText?, dateText?, hrange, secondsDateText, hday, secondsDateText]
  | datetime => rfl

/-- The values that are in the normal form of a kind of property. -/
inductive Normal (form : DateForm) : PropertyKind → Json → Prop where
  | null (kind : PropertyKind) : Normal form kind .null
  | string (s : String) : Normal form (.primitive .string) (.string s)
  | uri (s : String) : Normal form (.primitive .uri) (.string s)
  | integer {n : ℤ} (h : clampToSigned n = n) : Normal form (.primitive .integer) (.ofInt n)
  | float (x : Binary64) : Normal form (.primitive .float) (.number (.float x))
  | boolean (b : Bool) : Normal form (.primitive .boolean) (.bool b)
  | dateTime {seconds : ℤ} {text : String} (h : dateText? form seconds = some text) :
      Normal form .dateTime (.string text)
  | timestamp {n : ℤ} (h : clampToSigned n = n) : Normal form .timestamp (.ofInt n)
  | reference (value : Json) : Normal form .reference value
  | complex (value : Json) : Normal form .complex value

lemma normal_primitive {form : DateForm} {primitive : Primitive} {value result : Json}
    (h : primitive? primitive value = some result) : Normal form (.primitive primitive) result := by
  cases primitive with
  | string =>
    obtain rfl := Option.some.inj h
    exact .string _
  | uri =>
    obtain rfl := Option.some.inj h
    exact .uri _
  | integer =>
    obtain ⟨n, hn, rfl⟩ := Option.map_eq_some_iff.mp h
    exact .integer (clampToSigned_of_toInteger? hn)
  | float =>
    obtain ⟨x, -, rfl⟩ := Option.map_eq_some_iff.mp h
    exact .float x
  | boolean =>
    obtain rfl := Option.some.inj h
    exact .boolean _

end Normalize

open Normalize

lemma normalize_null (kind : PropertyKind) (form : DateForm) :
    normalize kind form .null = .null := by
  cases kind <;> rfl

lemma normalize_primitive (primitive : Primitive) (form : DateForm) {value : Json}
    (h : value.isNull = false) :
    normalize (.primitive primitive) form value = (primitive? primitive value).getD .null := by
  cases value <;> first | rfl | cases h

lemma normalize_dateTime_eq (form : DateForm) (value : Json) :
    normalize .dateTime form value =
      (((timestamp? value).bind (dateText? form)).map Json.string).getD .null := by
  cases value <;> rfl

lemma normalize_timestamp_eq (form : DateForm) (value : Json) :
    normalize .timestamp form value = ((timestamp? value).map Json.ofInt).getD .null := by
  cases value <;> rfl

/-- Normalizing gives a value in normal form. -/
theorem normal_normalize (kind : PropertyKind) (form : DateForm) (value : Json) :
    Normal form kind (normalize kind form value) := by
  cases hnull : value.isNull with
  | true =>
    cases value <;> cases hnull
    rw [normalize_null]
    exact .null kind
  | false =>
    cases kind with
    | primitive primitive =>
      rw [normalize_primitive primitive form hnull]
      cases hresult : primitive? primitive value with
      | none => exact .null _
      | some result => exact normal_primitive hresult
    | dateTime =>
      rw [normalize_dateTime_eq]
      cases hsecond : (timestamp? value).bind (dateText? form) with
      | none => exact .null _
      | some text =>
        obtain ⟨seconds, -, htext⟩ := Option.bind_eq_some_iff.mp hsecond
        exact .dateTime htext
    | timestamp =>
      rw [normalize_timestamp_eq]
      cases hsecond : timestamp? value with
      | none => exact .null _
      | some n => exact .timestamp (clampToSigned_of_timestamp? hsecond)
    | reference => exact .reference _
    | complex => exact .complex _

theorem Normalize.Normal.normalize_eq {kind : PropertyKind} {form : DateForm} {value : Json}
    (h : Normal form kind value) : normalize kind form value = value := by
  cases h with
  | null => exact normalize_null kind form
  | string s => rfl
  | uri s => rfl
  | @integer n h =>
    rw [normalize_primitive _ _ rfl, primitive?, Json.ofInt, toInteger?, Number.toSigned_ofInt h]
    rfl
  | float x => rfl
  | boolean b => rfl
  | @dateTime seconds text h =>
    rw [normalize_dateTime_eq, timestamp?, textTimestamp?_of_dateText? h, Option.bind_some,
      dateText?_storedSecond, h]
    rfl
  | @timestamp n h =>
    rw [normalize_timestamp_eq, Json.ofInt, timestamp?, Number.toSigned_ofInt h]
    rfl
  | reference => cases value <;> rfl
  | complex => cases value <;> rfl

/-- A date and time is stored with its second, a date with the first second of its day, and what
gives no second of a supported date becomes null. Whatever the kind of a property, normalizing once
more changes nothing. -/
theorem normalize_keeps_instant (value : Json) :
    (∀ seconds, timestamp? value = some seconds →
      Instant.firstSecond ≤ seconds ∧ seconds ≤ Instant.lastSecond →
      (∃ text, normalize .dateTime .datetime value = .string text ∧
        timestamp? (.string text) = some seconds) ∧
      ∃ text, normalize .dateTime .date value = .string text ∧
        timestamp? (.string text) = some (86400 * (seconds / 86400))) ∧
    ((¬ ∃ seconds, timestamp? value = some seconds ∧
        Instant.firstSecond ≤ seconds ∧ seconds ≤ Instant.lastSecond) →
      ∀ form, normalize .dateTime form value = .null) ∧
    ∀ kind form, normalize kind form (normalize kind form value) = normalize kind form value := by
  refine ⟨fun seconds hsecond hrange => ?_, fun hnone form => ?_, fun kind form => ?_⟩
  · have hstored (form : DateForm) : ∃ text, normalize .dateTime form value = .string text ∧
        timestamp? (.string text) = some (storedSecond seconds form) := by
      have hsome : (dateText? form seconds).isSome := by
        rw [isSome_dateText?, Instant.inRange_iff.mpr hrange]
      obtain ⟨text, htext⟩ := Option.isSome_iff_exists.mp hsome
      refine ⟨text, ?_, textTimestamp?_of_dateText? htext⟩
      rw [normalize_dateTime_eq, hsecond, Option.bind_some, htext]
      rfl
    exact ⟨hstored .datetime, hstored .date⟩
  · rw [normalize_dateTime_eq]
    cases hsecond : timestamp? value with
    | none => rfl
    | some seconds =>
      have htext : dateText? form seconds = none := by
        rw [← Option.not_isSome_iff_eq_none, isSome_dateText?, Instant.inRange_iff]
        exact fun hrange => hnone ⟨seconds, hsecond, hrange⟩
      rw [Option.bind_some, htext]
      rfl
  · exact (normal_normalize kind form value).normalize_eq

/-- The last second before the year zero, a truth value, and a number behind the last second. -/
theorem normalize_keeps_instant_beforeYearZero :
    ((∃ text, normalize .dateTime .datetime (.ofInt (-62167219201)) = .string text ∧
        timestamp? (.string text) = some (-62167219201)) ∧
      ∃ text, normalize .dateTime .date (.ofInt (-62167219201)) = .string text ∧
        timestamp? (.string text) = some (-62167305600)) ∧
    normalize .dateTime .datetime (.ofInt (-62167219201)) = .string "-0001-12-31T23:59:59" ∧
    normalize .dateTime .date (.bool true) = .null ∧
    normalize .dateTime .datetime (.ofInt 8210266876800) = .null ∧
    normalize .dateTime .date (normalize .dateTime .date (.ofInt (-62167219201))) =
      normalize .dateTime .date (.ofInt (-62167219201)) := by
  have hbefore := normalize_keeps_instant (.ofInt (-62167219201))
  have hbool : ¬ ∃ seconds, timestamp? (.bool true) = some seconds ∧
      Instant.firstSecond ≤ seconds ∧ seconds ≤ Instant.lastSecond := by
    rintro ⟨seconds, hsecond, -⟩
    cases hsecond
  have hlate : ¬ ∃ seconds, timestamp? (.ofInt 8210266876800) = some seconds ∧
      Instant.firstSecond ≤ seconds ∧ seconds ≤ Instant.lastSecond := by
    rintro ⟨seconds, hsecond, hrange⟩
    obtain rfl := Option.some.inj hsecond
    exact absurd hrange (by decide)
  exact ⟨hbefore.1 _ (by decide) (by decide), rfl,
    (normalize_keeps_instant (.bool true)).2.1 hbool .date,
    (normalize_keeps_instant (.ofInt 8210266876800)).2.1 hlate .datetime,
    hbefore.2.2 .dateTime .date⟩

end RecordMapping

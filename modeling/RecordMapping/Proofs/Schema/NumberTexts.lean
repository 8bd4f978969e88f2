import RecordMapping.Proofs.Json.Layouts
import RecordMapping.Proofs.Number.Numerals
import RecordMapping.Proofs.Schema.Normalize

/-!
# Numbers and their texts

A number and the string of its text take different ways through normalization: the number is
clamped or rounded, the text is tried as an integer and as a double. Main statement: both end in the
same value, and what is beyond a signed word ends at the end of the word.
-/

namespace RecordMapping

namespace Number

def truncate : Number → ℤ
  | .integer n _ => n
  | .float x => x.truncate

lemma toSigned_eq (n : Number) : n.toSigned = clampToSigned n.truncate := by
  cases n <;> rfl

lemma trim_text (n : Number) : trim n.text = n.text :=
  trim_of_forall fun _ h => Json.isBlank_of_isNumeralChar (isNumeralChar_of_mem_text h)

lemma float?_text (n : Number) : Numeral.float? n.text = some n.toBinary64 := by
  cases n with
  | integer value fits => exact Numeral.float?_integerText fits
  | float x => exact Numeral.float?_write layout x

lemma clampToSigned_truncate_ofInt {value : ℤ} (fits : FitsWord value)
    (h : clampToSigned value ≠ value) :
    clampToSigned (Binary64.ofInt value).truncate = clampToSigned value := by
  have hbeyond : 2 ^ 63 ≤ value ∧ value < 2 ^ 64 := by
    simp only [clampToSigned, FitsWord, signedEnd, wordEnd] at h fits
    omega
  have hdouble := Binary64.le_truncate_ofInt hbeyond.1 hbeyond.2
  simp only [clampToSigned, signedEnd]
  omega

lemma signed_text (n : Number) :
    (Numeral.integer? n.text).or
      ((Numeral.float? n.text).map fun x => clampToSigned x.truncate) = some n.toSigned := by
  rw [float?_text]
  cases n with
  | integer value fits =>
    rw [text, Numeral.integer?_integerText, toSigned, toBinary64]
    by_cases hsigned : clampToSigned value = value
    · rw [if_pos hsigned, hsigned]
      rfl
    · rw [if_neg hsigned, Option.none_or, Option.map_some,
        clampToSigned_truncate_ofInt fits hsigned]
  | float x =>
    rw [text, Numeral.integer?_write]
    rfl

end Number

namespace Normalize

variable (n : Number)

lemma toText_number : (Json.number n).toText = String.ofList n.text := rfl

lemma toInteger?_text : toInteger? (.string (Json.number n).toText) = some n.toSigned := by
  rw [toInteger?, toText_number, String.toList_ofList, Number.trim_text]
  exact n.signed_text

lemma toFloat?_text : toFloat? (.string (Json.number n).toText) = some n.toBinary64 := by
  rw [toFloat?, toText_number, String.toList_ofList, Number.trim_text, Number.float?_text]

lemma timestamp?_text : timestamp? (.string (Json.number n).toText) = some n.toSigned := by
  rw [timestamp?, textTimestamp?, toText_number, String.toList_ofList, Number.trim_text,
    ← Option.or_assoc, Number.signed_text, Option.some_or]

end Normalize

open Normalize

/-- The kinds of properties that hold texts, numbers and dates. -/
def textKinds : List PropertyKind :=
  [.primitive .string, .primitive .uri, .primitive .integer, .primitive .float, .timestamp,
    .dateTime]

lemma normalize_text_eq {kind : PropertyKind} (hkind : kind ∈ textKinds) (form : DateForm)
    (n : Number) :
    normalize kind form (.string (Json.number n).toText) = normalize kind form (.number n) := by
  simp only [textKinds, List.mem_cons, List.not_mem_nil, or_false] at hkind
  obtain rfl | rfl | rfl | rfl | rfl | rfl := hkind
  · rfl
  · rfl
  · rw [normalize_primitive _ _ rfl, normalize_primitive _ _ rfl, primitive?, toInteger?_text]
    rfl
  · rw [normalize_primitive _ _ rfl, normalize_primitive _ _ rfl, primitive?, toFloat?_text]
    rfl
  · rw [normalize_timestamp_eq, normalize_timestamp_eq, timestamp?_text]
    rfl
  · rw [normalize_dateTime_eq, normalize_dateTime_eq, timestamp?_text]
    rfl

lemma normalize_saturated {kind : PropertyKind}
    (hkind : kind = .primitive .integer ∨ kind = .timestamp) (form : DateForm) (n : Number) :
    normalize kind form (.number n) = .ofInt (clampToSigned n.truncate) := by
  rw [← Number.toSigned_eq]
  obtain rfl | rfl := hkind <;> rfl

/-- A number and the string of its text have the same normal form, whatever kind of property holds
them. As an integer or a timestamp, both are the last integer of a signed word if the number is
above the signed words, and the first if it is below them. -/
theorem normalize_number_eq_text (kind : PropertyKind) (hkind : kind ∈ textKinds)
    (form : DateForm) (n : Number) :
    normalize kind form (.number n) = normalize kind form (.string (Json.number n).toText) ∧
    (kind = .primitive .integer ∨ kind = .timestamp →
      (signedEnd ≤ n.truncate →
        normalize kind form (.number n) = .ofInt (signedEnd - 1) ∧
        normalize kind form (.string (Json.number n).toText) = .ofInt (signedEnd - 1)) ∧
      (n.truncate < -signedEnd →
        normalize kind form (.number n) = .ofInt (-signedEnd) ∧
        normalize kind form (.string (Json.number n).toText) = .ofInt (-signedEnd))) := by
  have htext := normalize_text_eq hkind form n
  refine ⟨htext.symm, fun hsigned => ?_⟩
  rw [htext, normalize_saturated hsigned]
  refine ⟨fun habove => ?_, fun hbelow => ?_⟩
  · have hclamp : clampToSigned n.truncate = signedEnd - 1 := by
      simp only [clampToSigned, signedEnd] at habove ⊢
      omega
    rw [hclamp]
    exact ⟨rfl, rfl⟩
  · have hclamp : clampToSigned n.truncate = -signedEnd := by
      simp only [clampToSigned, signedEnd] at hbelow ⊢
      omega
    rw [hclamp]
    exact ⟨rfl, rfl⟩

/-- The first integer above the signed words, a power of two far below them, minus zero, and a
second and a half. -/
theorem normalize_number_eq_text_samples :
    (Json.number (.integer signedEnd (by decide))).toText = "9223372036854775808" ∧
    normalize (.primitive .integer) .datetime (.string "9223372036854775808") =
      .ofInt (signedEnd - 1) ∧
    (Json.number (.float ⟨true, Binary64.leading, 2022, by decide, by decide, by decide⟩)).toText =
      "-1.0715086071862673e+301" ∧
    normalize .timestamp .datetime (.string "-1.0715086071862673e+301") = .ofInt (-signedEnd) ∧
    normalize (.primitive .float) .datetime (.string "-0.0") = .number (.float (.zero true)) ∧
    normalize .dateTime .datetime (.string "1.5") = .string "1970-01-01T00:00:01" := by
  have hword := normalize_number_eq_text (.primitive .integer) (by decide) .datetime
    (.integer signedEnd (by decide))
  have hpower := normalize_number_eq_text .timestamp (by decide) .datetime
    (.float ⟨true, Binary64.leading, 2022, by decide, by decide, by decide⟩)
  have hzero := normalize_number_eq_text (.primitive .float) (by decide) .datetime
    (.float (.zero true))
  have hsecond := normalize_number_eq_text .dateTime (by decide) .datetime
    (.float ⟨false, 6755399441055744, 1022, by decide, by decide, by decide⟩)
  have hwordText : (Json.number (.integer signedEnd (by decide))).toText =
    "9223372036854775808" := by decide +kernel
  have hpowerText : (Json.number
      (.float ⟨true, Binary64.leading, 2022, by decide, by decide, by decide⟩)).toText =
    "-1.0715086071862673e+301" := by decide +kernel
  have hzeroText : (Json.number (.float (.zero true))).toText = "-0.0" := by decide +kernel
  have hsecondText : (Json.number
      (.float ⟨false, 6755399441055744, 1022, by decide, by decide, by decide⟩)).toText =
    "1.5" := by decide +kernel
  rw [hwordText] at hword
  rw [hpowerText] at hpower
  rw [hzeroText] at hzero
  rw [hsecondText] at hsecond
  refine ⟨hwordText, ((hword.2 (.inl rfl)).1 (by decide)).2, hpowerText,
    ((hpower.2 (.inr rfl)).2 (by decide +kernel)).2, hzero.1.symm.trans rfl,
    hsecond.1.symm.trans ?_⟩
  have hwhole : (Number.float ⟨false, 6755399441055744, 1022, by decide, by decide,
    by decide⟩).toSigned = 1 := by decide +kernel
  rw [normalize_dateTime_eq, timestamp?, hwhole]
  rfl

end RecordMapping

import Mathlib
import RecordMapping.Plan.Slashed
import RecordMapping.Proofs.Number.Literals
import RecordMapping.Proofs.Text.Lines

namespace RecordMapping

lemma digitChar_of_isDigit {c : Char} (h : c.isDigit) :
    Nat.digitChar (c.toNat - '0'.toNat) = c := by
  obtain ⟨hlow, hhigh⟩ : 48 ≤ c.toNat ∧ c.toNat ≤ 57 := Char.isDigit_iff_toNat.mp h
  have hc : Char.ofNat c.toNat = c := Char.ofNat_toNat c
  generalize c.toNat = n at hc hlow hhigh
  subst hc
  interval_cases n <;> rfl

lemma toNat_sub_lt_of_isDigit {c : Char} (h : c.isDigit) : c.toNat - '0'.toNat < 10 := by
  obtain ⟨-, hhigh⟩ : 48 ≤ c.toNat ∧ c.toNat ≤ 57 := Char.isDigit_iff_toNat.mp h
  change c.toNat - 48 < 10
  omega

lemma toDigits_ofDigitChars {digits : List Char} (h : ∀ c ∈ digits, c.isDigit) {n : Nat}
    (hn : 0 < n) :
    Nat.toDigits 10 (Nat.ofDigitChars 10 digits n) = Nat.toDigits 10 n ++ digits := by
  induction digits generalizing n with
  | nil => simp [Nat.ofDigitChars]
  | cons c rest ih =>
    obtain ⟨hc, hrest⟩ := List.forall_mem_cons.mp h
    have hlt := toNat_sub_lt_of_isDigit hc
    have hfirst := Nat.toDigits_append_toDigits (b := 10) (by omega) hn hlt
    rw [Nat.toDigits_of_lt_base hlt, digitChar_of_isDigit hc] at hfirst
    rw [Nat.ofDigitChars_cons, ih hrest (by omega), ← hfirst, List.append_assoc,
      List.singleton_append]

lemma toDigits_digitsValue {digits : List Char} (hne : digits ≠ [])
    (h : ∀ c ∈ digits, c.isDigit) (hzero : digits = ['0'] ∨ digits.head? ≠ some '0') :
    Nat.toDigits 10 (digitsValue digits) = digits := by
  obtain rfl | hzero := hzero
  · rfl
  · obtain ⟨c, rest, rfl⟩ := List.exists_cons_of_ne_nil hne
    obtain ⟨hc, hrest⟩ := List.forall_mem_cons.mp h
    have hlt := toNat_sub_lt_of_isDigit hc
    have hchar := digitChar_of_isDigit hc
    have hpositive : 0 < c.toNat - '0'.toNat := by
      apply Nat.pos_of_ne_zero
      intro hnone
      rw [hnone] at hchar
      exact hzero (congrArg some hchar.symm)
    rw [digitsValue, Nat.ofDigitChars_cons, Nat.mul_zero, Nat.zero_add,
      toDigits_ofDigitChars hrest hpositive, Nat.toDigits_of_lt_base hlt, hchar,
      List.singleton_append]

namespace Step

lemma isPosition_iff {segment : List Char} : isPosition segment ↔
    segment ≠ [] ∧ (∀ c ∈ segment, c.isDigit) ∧ (segment = ['0'] ∨ segment.head? ≠ some '0') ∧
      digitsValue segment < wordEnd := by
  simp [isPosition, and_assoc]

theorem text_ofSegment (segment : List Char) :
    (ofSegment segment).text = String.ofList segment := by
  unfold ofSegment
  split
  · rename_i hposition
    obtain ⟨hne, hdigits, hzero, -⟩ := isPosition_iff.mp hposition
    rw [text, toDigits_digitsValue hne hdigits hzero]
  · rfl

lemma ofSegment_text_eq {segment : List Char} {step : Step} (h : step = ofSegment segment) :
    step = ofSegment step.text.toList := by
  rw [h, text_ofSegment, String.toList_ofList]

end Step

namespace SlashedPath

lemma plan_of_segmentsFrom {number : Nat} {texts : List (List Char)} {plan : Plan}
    (h : segmentsFrom number texts = .ok plan) : plan = texts.map segmentOf := by
  induction texts generalizing number plan with
  | nil => exact (Except.ok.inj h).symm
  | cons piece rest ih =>
    unfold segmentsFrom at h
    split at h
    · cases h
    · split at h
      · rename_i others hothers
        rw [← Except.ok.inj h, ih hothers, List.map_cons]
      · cases h

theorem plan_of_parse {source : String} {path : SlashedPath} (h : parse source = .ok path) :
    path.plan = (pieces '/' source.toList).map segmentOf := by
  unfold parse at h
  split at h
  · cases h
  · split at h
    · rename_i plan hplan
      rw [← Except.ok.inj h]
      exact plan_of_segmentsFrom hplan
    · cases h

lemma step_eq_ofSegment_of_parse {source : String} {path : SlashedPath}
    (h : parse source = .ok path) {step : Step} (hstep : .step step ∈ path.plan) :
    step = .ofSegment step.text.toList := by
  rw [plan_of_parse h] at hstep
  obtain ⟨piece, -, hpiece⟩ := List.mem_map.mp hstep
  unfold segmentOf at hpiece
  split at hpiece
  · cases hpiece
  · exact Step.ofSegment_text_eq (Segment.step.inj hpiece).symm

lemma text_of_parse_single {source : String} {path : SlashedPath} (h : parse source = .ok path)
    {step : Step} (hplan : path.plan = [.step step]) : step.text = source := by
  rw [plan_of_parse h] at hplan
  obtain ⟨piece, hpieces, hpiece⟩ := List.map_eq_singleton_iff.mp hplan
  have hsource : source.toList = piece := by
    rw [← joinPieces_pieces '/' source.toList, hpieces]
    rfl
  unfold segmentOf at hpiece
  split at hpiece
  · cases hpiece
  · rw [← Segment.step.inj hpiece, Step.text_ofSegment, ← hsource, String.ofList_toList]

end SlashedPath

end RecordMapping

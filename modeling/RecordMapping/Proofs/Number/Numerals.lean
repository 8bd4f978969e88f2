import RecordMapping.Proofs.Number.Literals
import RecordMapping.Proofs.Number.Shortest

namespace RecordMapping

namespace Numeral

def unsignedFloat? (negative : Bool) (text : List Char) : Option Binary64 :=
  let (whole, rest) := splitDigits text
  let (fraction, tail) := match rest with
    | '.' :: after => splitDigits after
    | _ => ([], rest)
  if whole.isEmpty && fraction.isEmpty then none
  else do
    let exponent ← exponent? tail
    Binary64.ofDecimal? negative (digitsValue (whole ++ fraction)) (exponent - fraction.length)

lemma float?_eq (text : List Char) :
    float? text = unsignedFloat? (splitSign text).1 (splitSign text).2 := rfl

variable {negative : Bool} {whole fraction tail : List Char}

lemma unsignedFloat?_whole (hne : whole ≠ []) (hwhole : ∀ c ∈ whole, c.isDigit)
    (htail : ∀ c ∈ tail.head?, c.isDigit = false ∧ c ≠ '.') :
    unsignedFloat? negative (whole ++ tail) = (exponent? tail).bind fun exponent =>
      Binary64.ofDecimal? negative (digitsValue whole) exponent := by
  have hsplit := splitDigits_of_all hwhole (fun c hc => (htail c hc).1)
  have hempty : whole.isEmpty = false := by simpa using hne
  unfold unsignedFloat?
  rw [hsplit]
  cases tail with
  | nil => simp [hempty]
  | cons c tail => simp [hempty, (htail c rfl).2]

lemma unsignedFloat?_point (hne : whole ≠ []) (hwhole : ∀ c ∈ whole, c.isDigit)
    (hfraction : ∀ c ∈ fraction, c.isDigit) (htail : ∀ c ∈ tail.head?, c.isDigit = false) :
    unsignedFloat? negative (whole ++ '.' :: (fraction ++ tail)) =
      (exponent? tail).bind fun exponent => Binary64.ofDecimal? negative
        (digitsValue (whole ++ fraction)) (exponent - fraction.length) := by
  have hsplit : splitDigits (whole ++ '.' :: (fraction ++ tail)) =
      (whole, '.' :: (fraction ++ tail)) := splitDigits_of_all hwhole (by simp)
  have hempty : whole.isEmpty = false := by simpa using hne
  unfold unsignedFloat?
  simp [hsplit, splitDigits_of_all hfraction htail, hempty]

lemma exponent?_signed (place : ℤ) :
    exponent? ('e' :: (if place < 0 then '-' else '+') :: Nat.toDigits 10 place.natAbs) =
      some place := by
  have hall : (Nat.toDigits 10 place.natAbs).all Char.isDigit :=
    List.all_eq_true.mpr fun c hc => isDigit_of_mem_toDigits hc
  have hvalue : digitsValue (Nat.toDigits 10 place.natAbs) = place.natAbs :=
    Nat.ofDigitChars_ten_toDigits
  by_cases hneg : place < 0
  · simp [exponent?, splitSign, Nat.toDigits_ne_nil, hall, hvalue, hneg, abs_of_neg]
  · simp [exponent?, splitSign, Nat.toDigits_ne_nil, hall, hvalue, hneg, abs_of_nonneg, not_lt.mp]

lemma integer?_eq_none {text : List Char} (h : ∃ c ∈ (splitSign text).2, c.isDigit = false) :
    integer? text = none := by
  obtain ⟨c, hc, hdigit⟩ := h
  have hall : (splitSign text).2.all Char.isDigit = false :=
    List.all_eq_false.mpr ⟨c, hc, by simp [hdigit]⟩
  simp [integer?, hall]

/-- A text that starts with a digit, is no integer and stands for a decimal of a value. -/
structure Writes (text : List Char) (value : ℚ) : Prop where
  head : ∃ c ∈ text.head?, c.isDigit
  mark : ∃ c ∈ text, c.isDigit = false
  float : ∃ (digits : ℕ) (exponent : ℤ), digits * 10 ^ exponent = value ∧
    ∀ negative, unsignedFloat? negative text = Binary64.ofDecimal? negative digits exponent

lemma writes_point (hne : whole ≠ []) (hwhole : ∀ c ∈ whole, c.isDigit)
    (hfraction : ∀ c ∈ fraction, c.isDigit) : Writes (whole ++ '.' :: fraction)
      (digitsValue (whole ++ fraction) * 10 ^ (-fraction.length : ℤ)) := by
  refine ⟨head?_digits_append hne hwhole _, ⟨'.', by simp, by decide⟩,
    ⟨_, _, rfl, fun negative => ?_⟩⟩
  have hread := @unsignedFloat?_point negative whole fraction [] hne hwhole hfraction
    (by simp)
  rw [List.append_nil] at hread
  rw [hread, exponent?, Option.bind_some, zero_sub]

lemma writes_exponent (hne : whole ≠ []) (hwhole : ∀ c ∈ whole, c.isDigit) (place : ℤ) :
    Writes (whole ++ 'e' :: (if place < 0 then '-' else '+') :: Nat.toDigits 10 place.natAbs)
      (digitsValue whole * 10 ^ place) := by
  refine ⟨head?_digits_append hne hwhole _, ⟨'e', by simp, by decide⟩,
    ⟨_, _, rfl, fun negative => ?_⟩⟩
  have hread := @unsignedFloat?_whole negative whole
    ('e' :: (if place < 0 then '-' else '+') :: Nat.toDigits 10 place.natAbs) hne hwhole (by simp)
  rw [hread, exponent?_signed, Option.bind_some]

lemma writes_point_exponent (hne : whole ≠ []) (hwhole : ∀ c ∈ whole, c.isDigit)
    (hfraction : ∀ c ∈ fraction, c.isDigit) (place : ℤ) :
    Writes (whole ++ '.' :: (fraction ++
        'e' :: (if place < 0 then '-' else '+') :: Nat.toDigits 10 place.natAbs))
      (digitsValue (whole ++ fraction) * 10 ^ (place - fraction.length)) := by
  refine ⟨head?_digits_append hne hwhole _, ⟨'.', by simp, by decide⟩,
    ⟨_, _, rfl, fun negative => ?_⟩⟩
  have hread := @unsignedFloat?_point negative whole fraction
    ('e' :: (if place < 0 then '-' else '+') :: Nat.toDigits 10 place.natAbs) hne hwhole hfraction
    (by simp)
  rw [hread, exponent?_signed, Option.bind_some]

end Numeral

namespace FloatLayout

open Numeral

variable {digits : List Char}

lemma digitsValue_append_replicate (digits : List Char) (n : ℕ) :
    digitsValue (digits ++ List.replicate n '0') = digitsValue digits * 10 ^ n := by
  rw [digitsValue, Nat.ofDigitChars_append, Nat.ofDigitChars_replicate_zero, Nat.mul_comm,
    digitsValue]

lemma isDigit_of_mem_replicate {n : ℕ} {c : Char} (h : c ∈ List.replicate n '0') : c.isDigit := by
  obtain rfl := List.eq_of_mem_replicate h
  decide

lemma writes_positional (hne : digits ≠ []) (hdigits : ∀ c ∈ digits, c.isDigit) (place : ℤ) :
    Writes (positional digits place) (digitsValue digits * 10 ^ (place + 1 - digits.length)) := by
  unfold positional
  by_cases hneg : place < 0
  · have hwrites := @writes_point ['0'] (List.replicate (place.natAbs - 1) '0' ++ digits) (by simp)
      (by simp)
      (List.forall_mem_append.mpr ⟨fun c hc => isDigit_of_mem_replicate hc, hdigits⟩)
    have hzeros : ['0'] ++ (List.replicate (place.natAbs - 1) '0' ++ digits) =
      List.replicate (place.natAbs - 1 + 1) '0' ++ digits := rfl
    have hplace : (-(List.replicate (place.natAbs - 1) '0' ++ digits).length : ℤ) =
        place + 1 - digits.length := by
      rw [List.length_append, List.length_replicate]
      omega
    rw [hzeros, digitsValue_replicate_append, hplace] at hwrites
    rw [if_pos hneg]
    exact hwrites
  · rw [if_neg hneg]
    dsimp only
    by_cases hlength : digits.length ≤ place.natAbs + 1
    · have hwrites := @writes_point
        (digits ++ List.replicate (place.natAbs + 1 - digits.length) '0') (List.replicate 1 '0')
        (by simp [hne])
        (List.forall_mem_append.mpr ⟨hdigits, fun c hc => isDigit_of_mem_replicate hc⟩) (by simp)
      rw [digitsValue_append_replicate, digitsValue_append_replicate] at hwrites
      obtain ⟨zeros, hzeros⟩ := Nat.exists_eq_add_of_le hlength
      have hcount : place.natAbs + 1 - digits.length = zeros := by omega
      have hplace : place + 1 - (digits.length : ℤ) = zeros := by omega
      have hvalue : ((digitsValue digits * 10 ^ zeros * 10 ^ 1 : ℕ) : ℚ) *
          10 ^ (-(List.replicate 1 '0').length : ℤ) = digitsValue digits * 10 ^ (zeros : ℤ) := by
        rw [zpow_neg, zpow_natCast, zpow_natCast, List.length_replicate]
        push_cast
        exact mul_inv_cancel_right₀ (by norm_num) _
      rw [hcount, hvalue] at hwrites
      rw [List.take_of_length_le hlength, List.drop_of_length_le hlength, hcount, hplace]
      exact hwrites
    · have hwrites := @writes_point (digits.take (place.natAbs + 1))
        (digits.drop (place.natAbs + 1)) (by simp [hne])
        (fun c hc => hdigits c (List.mem_of_mem_take hc))
        (fun c hc => hdigits c (List.mem_of_mem_drop hc))
      have hplace : (-(digits.drop (place.natAbs + 1)).length : ℤ) = place + 1 - digits.length := by
        rw [List.length_drop]
        omega
      have hzeros : place.natAbs + 1 - digits.length = 0 := by omega
      have hempty : (digits.drop (place.natAbs + 1)).isEmpty = false := by
        rw [List.isEmpty_eq_false_iff, ne_eq, List.drop_eq_nil_iff]
        exact hlength
      rw [List.take_append_drop, hplace] at hwrites
      rw [hzeros, hempty, List.replicate_zero, List.append_nil]
      exact hwrites

lemma writes_scientific (hne : digits ≠ []) (hdigits : ∀ c ∈ digits, c.isDigit) (place : ℤ) :
    Writes (scientific digits place) (digitsValue digits * 10 ^ (place + 1 - digits.length)) := by
  obtain ⟨d, rest, rfl⟩ := List.exists_cons_of_ne_nil hne
  obtain ⟨hd, hrest⟩ := List.forall_mem_cons.mp hdigits
  have hplace : place + 1 - ((d :: rest).length : ℤ) = place - rest.length := by
    rw [List.length_cons]
    push_cast
    omega
  rw [hplace]
  cases rest with
  | nil =>
    have hwrites := @writes_exponent [d] (by simp) hdigits place
    simpa [scientific] using hwrites
  | cons e rest =>
    have hwrites := @writes_point_exponent [d] (e :: rest) (by simp) (by simpa using hd) hrest
      place
    simpa [scientific] using hwrites

lemma exists_write_eq (layout : FloatLayout) (x : Binary64) :
    ∃ text, layout.write x = (if x.negative then '-' :: text else text) ∧
      Writes text x.shortest.value := by
  have hdigits : ∀ c ∈ Nat.toDigits 10 x.shortest.digits, c.isDigit :=
    fun c hc => isDigit_of_mem_toDigits hc
  have hvalue : x.shortest.value = digitsValue (Nat.toDigits 10 x.shortest.digits) *
      10 ^ (x.shortest.leadingPlace + 1 - (Nat.toDigits 10 x.shortest.digits).length) := by
    have hplace : x.shortest.leadingPlace + 1 - (Nat.toDigits 10 x.shortest.digits).length =
        x.shortest.lastPlace := by
      unfold Decimal.leadingPlace
      omega
    rw [hplace, digitsValue, Nat.ofDigitChars_ten_toDigits, Decimal.value]
  rw [hvalue]
  refine ⟨_, rfl, ?_⟩
  split_ifs
  · exact writes_positional Nat.toDigits_ne_nil hdigits _
  · exact writes_scientific Nat.toDigits_ne_nil hdigits _

end FloatLayout

namespace Numeral

lemma Writes.splitSign_eq {text : List Char} {value : ℚ} (h : Writes text value)
    (negative : Bool) : splitSign (if negative then '-' :: text else text) = (negative, text) := by
  cases negative with
  | true => rfl
  | false =>
    obtain ⟨c, hc, hdigit⟩ := h.head
    obtain ⟨rest, rfl⟩ := List.head?_eq_some_iff.mp hc
    exact splitSign_of_isDigit hdigit rest

variable (layout : FloatLayout) (x : Binary64)

theorem integer?_write : integer? (layout.write x) = none := by
  obtain ⟨text, hwrite, hwrites⟩ := layout.exists_write_eq x
  apply integer?_eq_none
  rw [hwrite, hwrites.splitSign_eq]
  exact hwrites.mark

theorem float?_write : float? (layout.write x) = some x := by
  obtain ⟨text, hwrite, hwrites⟩ := layout.exists_write_eq x
  obtain ⟨digits, exponent, hvalue, hread⟩ := hwrites.float
  rw [hwrite, float?_eq, hwrites.splitSign_eq, hread]
  cases hx : x.isZero with
  | false =>
    apply Binary64.ofDecimal?_of_covers hx
    rw [hvalue]
    exact Binary64.covers_shortest hx
  | true =>
    have hdigits : digits = 0 := by
      rw [Binary64.shortest_of_isZero hx, Decimal.value, Nat.cast_zero, zero_mul] at hvalue
      have hpos : (10 : ℚ) ^ exponent ≠ 0 := by positivity
      exact_mod_cast (mul_eq_zero.mp hvalue).resolve_right hpos
    rw [hdigits, Binary64.ofDecimal?_zero, ← Binary64.eq_zero_of_isZero hx]

lemma splitSign_integerText (n : ℤ) :
    splitSign (integerText n) = (decide (n < 0), Nat.toDigits 10 n.natAbs) := by
  unfold integerText
  by_cases hneg : n < 0
  · rw [if_pos hneg, decide_eq_true hneg]
    rfl
  · obtain ⟨c, digits, hdigits⟩ := List.exists_cons_of_ne_nil
      (Nat.toDigits_ne_nil (n := n.natAbs) (b := 10))
    rw [if_neg hneg, decide_eq_false hneg, hdigits, splitSign_of_isDigit]
    exact isDigit_of_mem_toDigits (hdigits ▸ List.mem_cons_self)

theorem integer?_integerText (n : ℤ) :
    integer? (integerText n) = if clampToSigned n = n then some n else none := by
  have hall : (Nat.toDigits 10 n.natAbs).all Char.isDigit :=
    List.all_eq_true.mpr fun c hc => isDigit_of_mem_toDigits hc
  have hsigned : (if decide (n < 0) = true then -(digitsValue (Nat.toDigits 10 n.natAbs) : ℤ)
      else digitsValue (Nat.toDigits 10 n.natAbs)) = n := by
    rw [digitsValue, Nat.ofDigitChars_ten_toDigits]
    simp only [decide_eq_true_eq]
    omega
  unfold integer?
  rw [splitSign_integerText]
  dsimp only
  rw [hsigned]
  by_cases hfits : clampToSigned n = n
  · simp [hall, Nat.toDigits_ne_nil, hfits]
  · simp [hfits, Ne.symm hfits]

theorem float?_integerText {n : ℤ} (h : FitsWord n) :
    float? (integerText n) = some (.ofInt n) := by
  have hread := @unsignedFloat?_whole (decide (n < 0)) (Nat.toDigits 10 n.natAbs) []
    Nat.toDigits_ne_nil (fun c hc => isDigit_of_mem_toDigits hc) (by simp)
  rw [List.append_nil, exponent?, Option.bind_some, digitsValue,
    Nat.ofDigitChars_ten_toDigits] at hread
  rw [float?_eq, splitSign_integerText, hread]
  apply Binary64.ofDecimal?_natAbs
  simp only [FitsWord, signedEnd, wordEnd] at h
  omega

end Numeral

end RecordMapping

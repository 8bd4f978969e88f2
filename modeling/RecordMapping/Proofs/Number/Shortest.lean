import RecordMapping.Proofs.Number.Rounding

/-!
# The shortest decimal reads back

Every grid of decimals is searched among the two neighbours of the double, so what is found lies in
the rounding interval. The last grid is finer than the interval, so something is found. Main
statement: the double covers its shortest decimal.
-/

namespace RecordMapping

namespace Decimal

def value (d : Decimal) : ℚ := d.digits * 10 ^ d.lastPlace

lemma value_trim (fuel : ℕ) (d : Decimal) : (trim fuel d).value = d.value := by
  induction fuel generalizing d with
  | zero => rfl
  | succ fuel ih =>
    unfold trim
    split_ifs with h
    · rw [ih]
      have hdigits : d.digits = 10 * (d.digits / 10) := by omega
      have hcast : (d.digits : ℚ) = 10 * (d.digits / 10 : ℕ) := by exact_mod_cast hdigits
      unfold value
      dsimp only
      rw [hcast, zpow_add_one₀ (by norm_num)]
      ring
    · rfl

end Decimal

namespace Binary64

variable {x : Binary64} {digits : ℕ} {place : ℤ}

lemma zpow_of_neg (h : place < 0) : (10 : ℚ) ^ place = ((10 ^ place.natAbs : ℕ) : ℚ)⁻¹ := by
  obtain ⟨n, rfl⟩ : ∃ n : ℕ, place = -n := ⟨place.natAbs, by omega⟩
  rw [zpow_neg, zpow_natCast, Int.natAbs_neg, Int.natAbs_natCast]
  push_cast
  rfl

lemma zpow_of_nonneg (h : ¬ place < 0) : (10 : ℚ) ^ place = ((10 ^ place.natAbs : ℕ) : ℚ) := by
  obtain ⟨n, rfl⟩ : ∃ n : ℕ, place = n := ⟨place.natAbs, by omega⟩
  rw [zpow_natCast, Int.natAbs_natCast]
  push_cast
  rfl

lemma readsFrom_iff : x.readsFrom digits place = true ↔ x.Covers (digits * 10 ^ place) := by
  unfold readsFrom
  dsimp only
  by_cases hneg : place < 0
  · rw [zpow_of_neg hneg, ← div_eq_mul_inv, covers_div (Nat.pow_pos (by decide))]
    simp only [if_pos hneg, Nat.pow_eq, Nat.mul_assoc]
    split_ifs <;> rw [decide_eq_true_iff]
  · have hvalue : (digits : ℚ) * 10 ^ place = ((digits * 10 ^ place.natAbs : ℕ) : ℚ) / (1 : ℕ) := by
      rw [zpow_of_nonneg hneg]
      push_cast
      ring
    rw [hvalue, covers_div Nat.one_pos]
    simp only [if_neg hneg, Nat.pow_eq, Nat.mul_assoc]
    split_ifs <;> rw [decide_eq_true_iff]

lemma reachesPlace_iff :
    x.reachesPlace place = true ↔ (10 : ℚ) ^ place * scale ≤ x.magnitude := by
  unfold reachesPlace
  by_cases hneg : place < 0
  · rw [if_pos hneg, decide_eq_true_iff, zpow_of_neg hneg, Nat.pow_eq,
      inv_mul_le_iff₀ (by positivity), mul_comm]
    norm_cast
  · rw [if_neg hneg, decide_eq_true_iff, zpow_of_nonneg hneg, Nat.pow_eq]
    norm_cast

lemma ten_zpow_le_two_zpow {k e : ℤ} (hlow : -1100 ≤ k) (hhigh : k ≤ 1100)
    (h : 100000 * (e + 1) ≤ 30103 * k) : (10 : ℚ) ^ e ≤ 2 ^ k := by
  by_cases he : 0 ≤ e
  · obtain ⟨n, rfl⟩ := Int.eq_ofNat_of_zero_le he
    obtain ⟨m, rfl⟩ : ∃ m : ℕ, k = m := ⟨k.natAbs, by omega⟩
    rw [zpow_natCast, zpow_natCast]
    have hpow : ((10 : ℚ) ^ n) ^ 59 ≤ (2 ^ m) ^ 59 := by
      calc ((10 : ℚ) ^ n) ^ 59 = (10 ^ 59) ^ n := by rw [← pow_mul, ← pow_mul, mul_comm]
        _ ≤ (2 ^ 196) ^ n := pow_le_pow_left₀ (by norm_num) (by norm_num) n
        _ = 2 ^ (196 * n) := by rw [← pow_mul]
        _ ≤ 2 ^ (m * 59) := pow_le_pow_right₀ (by norm_num) (by omega)
        _ = (2 ^ m) ^ 59 := by rw [← pow_mul]
    exact le_of_pow_le_pow_left₀ (by decide) (by positivity) hpow
  · by_cases hk : 0 ≤ k
    · exact le_trans (zpow_le_one_of_nonpos₀ (by norm_num) (by omega))
        (one_le_zpow₀ (by norm_num) hk)
    · obtain ⟨n, rfl⟩ : ∃ n : ℕ, e = -n := ⟨e.natAbs, by omega⟩
      obtain ⟨m, rfl⟩ : ∃ m : ℕ, k = -m := ⟨k.natAbs, by omega⟩
      rw [zpow_neg, zpow_neg, zpow_natCast, zpow_natCast]
      have hpow : ((2 : ℚ) ^ m) ^ 28 ≤ (10 ^ n) ^ 28 := by
        calc ((2 : ℚ) ^ m) ^ 28 = 2 ^ (m * 28) := by rw [← pow_mul]
          _ ≤ 2 ^ (93 * n) := pow_le_pow_right₀ (by norm_num) (by omega)
          _ = (2 ^ 93) ^ n := by rw [← pow_mul]
          _ ≤ (10 ^ 28) ^ n := pow_le_pow_left₀ (by norm_num) (by norm_num) n
          _ = (10 ^ n) ^ 28 := by rw [← pow_mul, ← pow_mul, mul_comm]
      exact inv_anti₀ (by positivity) (le_of_pow_le_pow_left₀ (by decide) (by positivity) hpow)

lemma magnitude_pos (hx : x.isZero = false) : 0 < x.magnitude :=
  Nat.mul_pos (one_le_mantissa hx) (Nat.two_pow_pos _)

lemma ten_zpow_leadingPlace_le (hx : x.isZero = false) :
    (10 : ℚ) ^ x.leadingPlace * scale ≤ x.magnitude := by
  obtain ⟨k, hk⟩ : ∃ k, k = 1074 := ⟨_, rfl⟩
  obtain ⟨b, hb⟩ : ∃ b, x.magnitude.log2 = b := ⟨_, rfl⟩
  have hne : x.magnitude ≠ 0 := (magnitude_pos hx).ne'
  have hlog : b < k + 1100 := by
    have hexponent : x.exponent ≤ k + 1047 := le_trans x.exponent_le (by omega)
    rw [← hb, Nat.log2_lt hne, magnitude_eq, show k + 1100 = 53 + (k + 1047) by omega, Nat.pow_add]
    exact Nat.mul_lt_mul_of_lt_of_le x.mantissa_lt (Nat.pow_le_pow_right two_pos hexponent)
      (Nat.two_pow_pos _)
  have hestimate (e : ℤ) (he : 100000 * (e + 1) ≤ 30103 * ((b : ℤ) - k)) :
      (10 : ℚ) ^ e * scale ≤ x.magnitude := by
    have hle : (10 : ℚ) ^ e ≤ 2 ^ ((b : ℤ) - k) := ten_zpow_le_two_zpow (by omega) (by omega) he
    calc (10 : ℚ) ^ e * scale ≤ 2 ^ ((b : ℤ) - k) * scale :=
        mul_le_mul_of_nonneg_right hle (Nat.cast_nonneg _)
      _ = ((2 ^ b : ℕ) : ℚ) := by
        rw [scale_eq hk, zpow_sub₀ (by norm_num), zpow_natCast, zpow_natCast]
        push_cast
        exact div_mul_cancel₀ _ (by positivity)
      _ ≤ x.magnitude := by
        exact_mod_cast hb ▸ Nat.log2_self_le hne
  unfold leadingPlace
  dsimp only
  split_ifs with hbelow habove
  · apply hestimate
    rw [hb, Int.fdiv_eq_ediv_of_nonneg _ (by decide), hk]
    push_cast
    omega
  · exact reachesPlace_iff.mp habove
  · exact reachesPlace_iff.mp (by simpa using hbelow)

lemma onGrid?_eq (x : Binary64) (place : ℤ) :
    ∃ num den : ℕ, 0 < den ∧ num * (10 ^ place * (scale : ℚ)) = den * x.magnitude ∧
      x.onGrid? place = match x.readsFrom (num / den) place, x.readsFrom (num / den + 1) place with
        | true, true => some ⟨roundHalfEven num den, place⟩
        | true, false => some ⟨num / den, place⟩
        | false, true => some ⟨num / den + 1, place⟩
        | false, false => none := by
  refine ⟨if place < 0 then x.magnitude * Nat.pow 10 place.natAbs else x.magnitude,
    if place < 0 then scale else scale * Nat.pow 10 place.natAbs, ?_, ?_, rfl⟩
  · have hpow : 0 < Nat.pow 10 place.natAbs := Nat.pow_pos (by decide)
    split_ifs
    · exact scale_pos
    · exact Nat.mul_pos scale_pos hpow
  · generalize scale = unit, x.magnitude = magnitude
    by_cases hneg : place < 0
    · rw [if_pos hneg, if_pos hneg, zpow_of_neg hneg, Nat.pow_eq]
      push_cast
      field_simp
    · rw [if_neg hneg, if_neg hneg, zpow_of_nonneg hneg, Nat.pow_eq]
      push_cast
      ring

lemma covers_of_onGrid? {d : Decimal} (h : x.onGrid? place = some d) : x.Covers d.value := by
  obtain ⟨num, den, -, -, hgrid⟩ := onGrid?_eq x place
  rw [hgrid] at h
  apply readsFrom_iff.mp
  cases hbelow : x.readsFrom (num / den) place <;>
    cases habove : x.readsFrom (num / den + 1) place <;>
    rw [hbelow, habove] at h
  · cases h
  · obtain rfl := Option.some.inj h
    exact habove
  · obtain rfl := Option.some.inj h
    exact hbelow
  · obtain rfl := Option.some.inj h
    obtain heq | heq : roundHalfEven num den = num / den ∨
        roundHalfEven num den = num / den + 1 := by
      have hneighbours := le_roundHalfEven num den
      omega
    · rw [heq]
      exact hbelow
    · rw [heq]
      exact habove

/-- On a grid finer than the rounding interval the upper neighbour reads back. -/
lemma exists_onGrid? (h : 2 * (10 ^ place * (scale : ℚ)) < 2 ^ x.exponent) :
    ∃ d, x.onGrid? place = some d := by
  obtain ⟨num, den, hden, hratio, hgrid⟩ := onGrid?_eq x place
  have habove : x.readsFrom (num / den + 1) place = true := by
    rw [readsFrom_iff]
    obtain ⟨unit, hunit⟩ : ∃ unit, 10 ^ place * (scale : ℚ) = unit := ⟨_, rfl⟩
    have hpos : (0 : ℚ) < den := by exact_mod_cast hden
    have hscale : (0 : ℚ) < scale := by exact_mod_cast scale_pos
    have hunit_pos : 0 < unit := hunit ▸ mul_pos (by positivity) hscale
    have hvalue : 4 * (((num / den + 1 : ℕ) : ℚ) * 10 ^ place) * scale =
        4 * ((num / den : ℕ) * unit) + 4 * unit := by
      rw [← hunit]
      push_cast
      ring
    rw [hunit] at h hratio
    have hlow : ((num / den : ℕ) : ℚ) * unit ≤ x.magnitude := by
      have hmul : ((num / den : ℕ) : ℚ) * den ≤ num := by exact_mod_cast Nat.div_mul_le_self num den
      rw [← mul_le_mul_iff_right₀ hpos, ← hratio]
      nlinarith
    have hhigh : (x.magnitude : ℚ) < (num / den : ℕ) * unit + unit := by
      have hmul : (num : ℚ) < (num / den : ℕ) * den + den := by
        exact_mod_cast Nat.lt_div_mul_add hden
      rw [← mul_lt_mul_iff_right₀ hpos, ← hratio]
      nlinarith
    apply covers_of_lt
    · rw [hvalue, roundingInterval_eq]
      have hsub : ((4 * x.magnitude - x.reachBelow : ℕ) : ℚ) ≤ (4 * x.magnitude : ℕ) := by
        exact_mod_cast Nat.sub_le _ _
      push_cast at hsub
      linarith
    · rw [hvalue, roundingInterval_eq]
      push_cast
      linarith
  rw [hgrid, habove]
  cases x.readsFrom (num / den) place with
  | true => exact ⟨_, rfl⟩
  | false => exact ⟨_, rfl⟩

lemma covers_firstGrid {fuel : ℕ} (h : ∃ d, x.onGrid? (place - fuel) = some d) :
    x.Covers (x.firstGrid fuel place).value := by
  induction fuel generalizing place with
  | zero =>
    obtain ⟨d, hd⟩ := h
    rw [Nat.cast_zero, sub_zero] at hd
    rw [firstGrid, hd]
    exact covers_of_onGrid? hd
  | succ fuel ih =>
    unfold firstGrid
    split
    · rename_i d hd
      exact covers_of_onGrid? hd
    · apply ih
      rwa [Nat.cast_succ, ← sub_sub, sub_right_comm] at h

/-- A double other than zero covers its shortest decimal. -/
theorem covers_shortest (hx : x.isZero = false) : x.Covers x.shortest.value := by
  unfold shortest
  rw [hx, if_neg Bool.false_ne_true, Decimal.value_trim]
  apply covers_firstGrid
  apply exists_onGrid?
  have hunit : (0 : ℚ) < 2 ^ x.exponent := by positivity
  have hleading : (10 : ℚ) ^ x.leadingPlace * scale ≤ 2 ^ 53 * 2 ^ x.exponent := by
    refine le_trans (ten_zpow_leadingPlace_le hx) ?_
    rw [magnitude_eq]
    exact_mod_cast Nat.mul_le_mul_right (2 ^ x.exponent) x.mantissa_lt.le
  calc 2 * (10 ^ (x.leadingPlace - (17 : ℕ)) * (scale : ℚ))
      = 2 * (10 ^ x.leadingPlace * scale) / 10 ^ 17 := by
        rw [zpow_sub₀ (by norm_num), zpow_natCast]
        ring
    _ ≤ 2 * (2 ^ 53 * 2 ^ x.exponent) / 10 ^ 17 :=
      div_le_div_of_nonneg_right (mul_le_mul_of_nonneg_left hleading (by norm_num)) (by norm_num)
    _ = 2 ^ 54 / 10 ^ 17 * 2 ^ x.exponent := by ring
    _ < 1 * 2 ^ x.exponent := mul_lt_mul_of_pos_right (by norm_num) hunit
    _ = 2 ^ x.exponent := one_mul _

lemma shortest_of_isZero (hx : x.isZero = true) : x.shortest = ⟨0, 0⟩ := if_pos hx

end Binary64

end RecordMapping

import Mathlib
import RecordMapping.Number.Shortest

/-!
# Rounding to doubles

A double is what every real of its rounding interval rounds to. The interval reaches half a unit of
the last place to both sides, and only a quarter of one below a power of two, where the doubles lie
closer. Main statements: a quotient and a decimal in the interval of a double are rounded to it, and
the quotients that are not too large are rounded to some double.
-/

namespace RecordMapping

namespace Binary64

/-- A quotient that is at most a half away from a natural number is rounded to it, if the number is
even or the distance is less than a half. -/
lemma roundHalfEven_eq {num den m : ℕ} (hden : 0 < den) (hlow : 2 * (m * den) ≤ 2 * num + den)
    (hhigh : 2 * num ≤ 2 * (m * den) + den)
    (hodd : m % 2 = 1 → 2 * (m * den) < 2 * num + den ∧ 2 * num < 2 * (m * den) + den) :
    roundHalfEven num den = m := by
  have hdiv : num / den * den + num % den = num := Nat.div_add_mod' num den
  have hmod : num % den < den := Nat.mod_lt num hden
  have hbelow : m ≤ num / den + 1 := by
    by_contra hlt
    have hmul := Nat.mul_le_mul_right den (show num / den + 2 ≤ m by omega)
    rw [Nat.add_mul] at hmul
    omega
  have habove : num / den ≤ m := by
    by_contra hlt
    have hmul := Nat.mul_le_mul_right den (show m + 1 ≤ num / den by omega)
    rw [Nat.add_mul] at hmul
    omega
  unfold roundHalfEven
  dsimp only
  obtain rfl | rfl : m = num / den ∨ m = num / den + 1 := by omega
  · split_ifs <;> omega
  · rw [Nat.add_mul] at hlow hhigh hodd
    split_ifs <;> omega

lemma le_roundHalfEven (num den : ℕ) :
    num / den ≤ roundHalfEven num den ∧ roundHalfEven num den ≤ num / den + 1 := by
  unfold roundHalfEven
  dsimp only
  split_ifs <;> omega

lemma ofParts?_self (x : Binary64) : ofParts? x.negative x.mantissa x.exponent = some x := by
  rw [ofParts?, dif_pos ⟨x.mantissa_lt, x.normalized, x.exponent_le⟩]

/-- The binary exponent at which a quotient, as a multiple of the smallest double, is rounded. -/
def ratioExponent (num den : ℕ) : ℕ := (num * scale / den).log2 - 52

/-- The significand of a quotient, before it carries into the exponent. -/
def ratioMantissa (num den : ℕ) : ℕ :=
  roundHalfEven (num * scale) (den * 2 ^ ratioExponent num den)

lemma ofRatio?_eq (negative : Bool) (num den : ℕ) : ofRatio? negative num den =
    if ratioMantissa num den = carry then ofParts? negative leading (ratioExponent num den + 1)
    else ofParts? negative (ratioMantissa num den) (ratioExponent num den) := rfl

lemma magnitude_eq (x : Binary64) : x.magnitude = x.mantissa * 2 ^ x.exponent := rfl

/-- Whether doubles lie closer below this one than above. -/
def ClosesBinade (x : Binary64) : Prop := x.mantissa = leading ∧ x.exponent ≠ 0

instance (x : Binary64) : Decidable x.ClosesBinade := inferInstanceAs (Decidable (_ ∧ _))

/-- How far the rounding interval reaches below a double, in quarters of the smallest double. -/
def reachBelow (x : Binary64) : ℕ := if x.ClosesBinade then 2 ^ x.exponent else 2 * 2 ^ x.exponent

lemma roundingInterval_eq (x : Binary64) : x.roundingInterval =
    (4 * x.magnitude - x.reachBelow, 4 * x.magnitude + 2 * 2 ^ x.exponent) := by
  rw [roundingInterval, reachBelow]
  by_cases h : x.ClosesBinade
  · rw [if_pos h]
    exact congrArg (fun below => (4 * x.magnitude - below, _)) (if_pos h)
  · rw [if_neg h]
    exact congrArg (fun below => (4 * x.magnitude - below, _)) (if_neg h)

lemma reachBelow_le (x : Binary64) : x.reachBelow ≤ 2 * 2 ^ x.exponent := by
  unfold reachBelow
  split_ifs <;> omega

/-- Whether a magnitude lies in the rounding interval of a double. The ends of the interval belong
to it when the significand is even. -/
def Covers (x : Binary64) (v : ℚ) : Prop :=
  if x.mantissa % 2 = 0 then
    (x.roundingInterval.1 : ℚ) ≤ 4 * v * scale ∧ 4 * v * scale ≤ (x.roundingInterval.2 : ℚ)
  else (x.roundingInterval.1 : ℚ) < 4 * v * scale ∧ 4 * v * scale < (x.roundingInterval.2 : ℚ)

lemma Covers.mem {x : Binary64} {v : ℚ} (h : x.Covers v) :
    (x.roundingInterval.1 : ℚ) ≤ 4 * v * scale ∧ 4 * v * scale ≤ (x.roundingInterval.2 : ℚ) := by
  unfold Covers at h
  split_ifs at h
  · exact h
  · exact ⟨h.1.le, h.2.le⟩

lemma covers_of_lt {x : Binary64} {v : ℚ} (hlow : (x.roundingInterval.1 : ℚ) < 4 * v * scale)
    (hhigh : 4 * v * scale < (x.roundingInterval.2 : ℚ)) : x.Covers v := by
  unfold Covers
  split_ifs
  · exact ⟨hlow.le, hhigh.le⟩
  · exact ⟨hlow, hhigh⟩

lemma covers_div {x : Binary64} {num den : ℕ} (hden : 0 < den) :
    x.Covers (num / den) ↔
      if x.mantissa % 2 = 0 then
        x.roundingInterval.1 * den ≤ 4 * (num * scale) ∧
          4 * (num * scale) ≤ x.roundingInterval.2 * den
      else x.roundingInterval.1 * den < 4 * (num * scale) ∧
        4 * (num * scale) < x.roundingInterval.2 * den := by
  have hpos : (0 : ℚ) < den := by exact_mod_cast hden
  have hvalue : 4 * ((num : ℚ) / den) * scale = (4 * (num * scale) : ℕ) / den := by
    push_cast
    ring
  unfold Covers
  rw [hvalue, le_div_iff₀ hpos, div_le_iff₀ hpos, lt_div_iff₀ hpos, div_lt_iff₀ hpos]
  norm_cast

/-- The exponent of a quotient whose significand fits, and is full unless the exponent is zero. -/
lemma ratioExponent_eq {num den e : ℕ} (hden : 0 < den)
    (hlow : e = 0 ∨ leading * (den * 2 ^ e) ≤ num * scale)
    (hhigh : num * scale < carry * (den * 2 ^ e)) : ratioExponent num den = e := by
  have hupper : num * scale / den < 2 ^ (53 + e) := by
    rw [Nat.div_lt_iff_lt_mul hden, Nat.pow_add, Nat.mul_assoc, Nat.mul_comm (2 ^ e)]
    exact hhigh
  have hlog : (num * scale / den).log2 < 53 + e := by
    by_cases hzero : num * scale / den = 0
    · rw [hzero, Nat.log2_zero]
      omega
    · exact (Nat.log2_lt hzero).mpr hupper
  unfold ratioExponent
  obtain rfl | hfull := hlow
  · omega
  · have hlower : 2 ^ (52 + e) ≤ num * scale / den := by
      rw [Nat.le_div_iff_mul_le hden, Nat.pow_add, Nat.mul_assoc, Nat.mul_comm (2 ^ e)]
      exact hfull
    have hne : num * scale / den ≠ 0 := by
      have hpos := Nat.two_pow_pos (52 + e)
      omega
    have hlower := (Nat.le_log2 hne).mpr hlower
    omega

variable {x : Binary64} {num den : ℕ}

lemma covers_bounds (hden : 0 < den) (h : x.Covers (num / den)) :
    4 * (x.mantissa * (den * 2 ^ x.exponent)) ≤ 4 * (num * scale) + x.reachBelow * den ∧
    4 * (num * scale) ≤ 4 * (x.mantissa * (den * 2 ^ x.exponent)) + 2 * (den * 2 ^ x.exponent) ∧
    (x.mantissa % 2 = 1 →
      4 * (x.mantissa * (den * 2 ^ x.exponent)) < 4 * (num * scale) + x.reachBelow * den ∧
      4 * (num * scale) <
        4 * (x.mantissa * (den * 2 ^ x.exponent)) + 2 * (den * 2 ^ x.exponent)) := by
  rw [covers_div hden, roundingInterval_eq, magnitude_eq] at h
  have hhigh : (4 * (x.mantissa * 2 ^ x.exponent) + 2 * 2 ^ x.exponent) * den =
      4 * (x.mantissa * (den * 2 ^ x.exponent)) + 2 * (den * 2 ^ x.exponent) := by ring
  have hlow : 4 * (x.mantissa * (den * 2 ^ x.exponent)) ≤
      (4 * (x.mantissa * 2 ^ x.exponent) - x.reachBelow) * den + x.reachBelow * den := by
    rw [← Nat.add_mul]
    have hsub : 4 * (x.mantissa * 2 ^ x.exponent) ≤
      4 * (x.mantissa * 2 ^ x.exponent) - x.reachBelow + x.reachBelow := by omega
    have hmul := Nat.mul_le_mul_right den hsub
    nlinarith
  dsimp only at h
  rw [hhigh] at h
  split_ifs at h with heven
  · exact ⟨by omega, h.2, by omega⟩
  · exact ⟨by omega, by omega, fun _ => ⟨by omega, h.2⟩⟩

lemma reachBelow_mul_le (x : Binary64) (den : ℕ) :
    x.reachBelow * den ≤ 2 * (den * 2 ^ x.exponent) := by
  have hmul := Nat.mul_le_mul_right den x.reachBelow_le
  rwa [Nat.mul_assoc, Nat.mul_comm (2 ^ x.exponent)] at hmul

lemma ofRatio?_of_ratioExponent (hden : 0 < den) (h : x.Covers (num / den))
    (hexponent : ratioExponent num den = x.exponent) : ofRatio? x.negative num den = some x := by
  obtain ⟨hlow, hhigh, hodd⟩ := covers_bounds hden h
  have hpos : 0 < den * 2 ^ x.exponent := Nat.mul_pos hden (Nat.two_pow_pos _)
  have hreach := x.reachBelow_mul_le den
  have hmantissa : ratioMantissa num den = x.mantissa := by
    rw [ratioMantissa, hexponent]
    apply roundHalfEven_eq hpos
    · omega
    · omega
    · intro hm
      have hstrict := hodd hm
      omega
  have hfit : x.mantissa ≠ carry := Nat.ne_of_lt x.mantissa_lt
  rw [ofRatio?_eq, hmantissa, hexponent, if_neg hfit, ofParts?_self]

/-- Below a power of two a quotient is rounded at the next lower exponent, and carries. -/
lemma ofRatio?_of_carry (hden : 0 < den) (h : x.Covers (num / den)) (hcloses : x.ClosesBinade)
    (hbelow : num * scale < leading * (den * 2 ^ x.exponent)) :
    ofRatio? x.negative num den = some x := by
  obtain ⟨hlow, -, -⟩ := covers_bounds hden h
  obtain ⟨hleading, hexponent⟩ := hcloses
  obtain ⟨e, he⟩ : ∃ e, x.exponent = e + 1 := Nat.exists_eq_succ_of_ne_zero hexponent
  have hpos : 0 < den * 2 ^ e := Nat.mul_pos hden (Nat.two_pow_pos _)
  have hdouble : den * 2 ^ x.exponent = 2 * (den * 2 ^ e) := by
    rw [he, Nat.pow_succ, Nat.mul_comm (2 ^ e), Nat.mul_left_comm]
  have hreach : x.reachBelow * den = 2 * (den * 2 ^ e) := by
    rw [reachBelow, if_pos ⟨hleading, hexponent⟩, Nat.mul_comm, hdouble]
  rw [hdouble, hreach, hleading] at hlow
  rw [hdouble] at hbelow
  have hratio : ratioExponent num den = e := by
    apply ratioExponent_eq hden
    · right
      unfold leading at hlow ⊢
      omega
    · unfold leading carry at *
      omega
  have hmantissa : ratioMantissa num den = carry := by
    rw [ratioMantissa, hratio]
    unfold leading at hlow hbelow
    apply roundHalfEven_eq hpos
    · unfold carry
      omega
    · unfold carry
      omega
    · intro hm
      cases hm
  rw [ofRatio?_eq, if_pos hmantissa, hratio, ← he, ← hleading, ofParts?_self]

theorem ofRatio?_of_covers (hden : 0 < den) (h : x.Covers (num / den)) :
    ofRatio? x.negative num den = some x := by
  obtain ⟨hlow, hhigh, hodd⟩ := covers_bounds hden h
  have hpos : 0 < den * 2 ^ x.exponent := Nat.mul_pos hden (Nat.two_pow_pos _)
  by_cases hbelow : x.exponent = 0 ∨ leading * (den * 2 ^ x.exponent) ≤ num * scale
  · apply ofRatio?_of_ratioExponent hden h
    apply ratioExponent_eq hden hbelow
    by_cases hlargest : x.mantissa = carry - 1
    · have hlast : x.mantissa % 2 = 1 := by
        rw [hlargest]
        rfl
      have hstrict := (hodd hlast).2
      rw [hlargest] at hstrict
      unfold carry at hstrict ⊢
      omega
    · have hfit := x.mantissa_lt
      have hmul := Nat.mul_le_mul_right (den * 2 ^ x.exponent)
        (show x.mantissa + 2 ≤ carry by unfold carry at *; omega)
      rw [Nat.add_mul] at hmul
      omega
  · obtain ⟨hexponent, hsmall⟩ := not_or.mp hbelow
    rw [Nat.not_le] at hsmall
    have hfull : leading ≤ x.mantissa := x.normalized.resolve_left hexponent
    have hcloses : x.ClosesBinade := by
      refine ⟨?_, hexponent⟩
      by_contra hne
      have hreach := x.reachBelow_mul_le den
      have hmul := Nat.mul_le_mul_right (den * 2 ^ x.exponent)
        (show leading + 1 ≤ x.mantissa by omega)
      rw [Nat.add_mul] at hmul
      omega
    exact ofRatio?_of_carry hden h hcloses hsmall

lemma exists_ofRatio? (negative : Bool) (hexponent : ratioExponent num den ≤ 2044) :
    ∃ y, ofRatio? negative num den = some y ∧ y.negative = negative ∧
      y.magnitude = ratioMantissa num den * 2 ^ ratioExponent num den := by
  obtain ⟨e, he⟩ : ∃ e, ratioExponent num den = e := ⟨_, rfl⟩
  obtain ⟨q, hq⟩ : ∃ q, num * scale / den / 2 ^ e = q := ⟨_, rfl⟩
  have hlog : (num * scale / den).log2 < 53 + e := by
    unfold ratioExponent at he
    omega
  have hquotient : q < 2 ^ 53 := by
    rw [← hq, Nat.div_lt_iff_lt_mul (Nat.two_pow_pos e), ← Nat.pow_add]
    by_cases hne : num * scale / den = 0
    · rw [hne]
      exact Nat.two_pow_pos _
    · exact (Nat.log2_lt hne).mp hlog
  obtain ⟨hlow, hhigh⟩ := le_roundHalfEven (num * scale) (den * 2 ^ e)
  rw [← Nat.div_div_eq_div_mul, hq] at hlow hhigh
  rw [ofRatio?_eq]
  unfold ratioMantissa
  rw [he] at hexponent ⊢
  by_cases hcarry : roundHalfEven (num * scale) (den * 2 ^ e) = carry
  · rw [if_pos hcarry, hcarry]
    have hparts : leading < carry ∧ (e + 1 = 0 ∨ leading ≤ leading) ∧ e + 1 ≤ 2045 :=
      ⟨by decide, .inr le_rfl, by omega⟩
    refine ⟨_, dif_pos hparts, rfl, ?_⟩
    have hdouble : leading * 2 = carry := by decide
    rw [magnitude_eq, Nat.pow_succ, Nat.mul_comm (2 ^ e), ← Nat.mul_assoc]
    dsimp only
    rw [hdouble]
  · have hfull : e = 0 ∨ leading ≤ q := by
      by_cases hzero : e = 0
      · exact .inl hzero
      · right
        have hne : num * scale / den ≠ 0 := by
          intro hne
          rw [ratioExponent, hne] at he
          exact hzero (he.symm.trans rfl)
        rw [← hq, Nat.le_div_iff_mul_le (Nat.two_pow_pos e)]
        have hpow := (Nat.le_log2 hne).mp (show 52 + e ≤ _ by unfold ratioExponent at he; omega)
        rwa [Nat.pow_add] at hpow
    rw [if_neg hcarry]
    refine ⟨_, dif_pos ⟨?_, ?_, ?_⟩, rfl, rfl⟩
    · unfold carry at hcarry ⊢
      omega
    · exact hfull.imp id (fun hleading => le_trans hleading hlow)
    · omega

lemma le_ratioMantissa {j : ℕ} (hden : 0 < den) (hexponent : ratioExponent num den ≤ j)
    (h : 2 ^ j * den ≤ num * scale) :
    2 ^ j ≤ ratioMantissa num den * 2 ^ ratioExponent num den := by
  obtain ⟨e, he⟩ : ∃ e, ratioExponent num den = e := ⟨_, rfl⟩
  rw [ratioMantissa, he]
  rw [he] at hexponent
  obtain ⟨i, rfl⟩ := Nat.exists_eq_add_of_le hexponent
  have hquotient : 2 ^ i ≤ num * scale / (den * 2 ^ e) := by
    rw [Nat.le_div_iff_mul_le (Nat.mul_pos hden (Nat.two_pow_pos e))]
    calc 2 ^ i * (den * 2 ^ e) = 2 ^ (e + i) * den := by ring
      _ ≤ num * scale := h
  rw [Nat.pow_add, Nat.mul_comm]
  exact Nat.mul_le_mul_right _ (le_trans hquotient (le_roundHalfEven _ _).1)

-- Large exponents stand for variables, so that no power of their size is computed.

lemma scale_eq {k : ℕ} (hk : k = 1074) : scale = 2 ^ k := by
  delta scale
  rw [← hk, Nat.pow_eq]

lemma scale_pos : 0 < scale := by
  obtain ⟨k, hk⟩ : ∃ k, k = 1074 := ⟨_, rfl⟩
  rw [scale_eq hk]
  exact Nat.two_pow_pos k

lemma two_pow_le_ten_pow {m n : ℕ} (h : m ≤ 3 * n) : (2 : ℚ) ^ m ≤ 10 ^ n := by
  calc (2 : ℚ) ^ m ≤ 2 ^ (3 * n) := pow_le_pow_right₀ (by norm_num) h
    _ = 8 ^ n := by
      rw [pow_mul]
      norm_num
    _ ≤ 10 ^ n := pow_le_pow_left₀ (by norm_num) (by norm_num) n

lemma one_le_mantissa (hx : x.isZero = false) : 1 ≤ x.mantissa := by
  rw [Nat.one_le_iff_ne_zero]
  simpa [isZero] using hx

lemma Covers.mem_binades {k m : ℕ} {v : ℚ} (hk : k = 1074) (hm : m = 1024) (h : x.Covers v)
    (hx : x.isZero = false) : 1 ≤ 2 * (v * 2 ^ k) ∧ v ≤ 2 ^ m := by
  obtain ⟨hlow, hhigh⟩ := h.mem
  rw [roundingInterval_eq, magnitude_eq, scale_eq hk, Nat.cast_pow, Nat.cast_ofNat] at hlow hhigh
  dsimp only at hlow hhigh
  have hunit : 1 ≤ 2 ^ x.exponent := Nat.one_le_two_pow
  constructor
  · have hmul := Nat.mul_le_mul_right (2 ^ x.exponent) (one_le_mantissa hx)
    have hreach := x.reachBelow_le
    have hhalf : ((2 : ℕ) : ℚ) ≤ 4 * v * 2 ^ k := by
      refine le_trans ?_ hlow
      exact_mod_cast (show 2 ≤ 4 * (x.mantissa * 2 ^ x.exponent) - x.reachBelow by omega)
    push_cast at hhalf
    linarith
  · have hlargest : (x.mantissa + 1) * 2 ^ x.exponent ≤ 2 ^ 53 * 2 ^ (k + m - 53) :=
      Nat.mul_le_mul x.mantissa_lt (Nat.pow_le_pow_right two_pos (by have := x.exponent_le; omega))
    rw [Nat.add_mul, ← Nat.pow_add, show 53 + (k + m - 53) = k + m by omega] at hlargest
    have hquarter : 4 * v * 2 ^ k ≤ ((4 * 2 ^ (k + m) : ℕ) : ℚ) := by
      refine le_trans hhigh ?_
      exact_mod_cast (show 4 * (x.mantissa * 2 ^ x.exponent) + 2 * 2 ^ x.exponent ≤
        4 * 2 ^ (k + m) by omega)
    push_cast at hquarter
    rw [pow_add, mul_assoc 4, mul_le_mul_iff_right₀ (by norm_num), mul_comm v] at hquarter
    exact le_of_mul_le_mul_left hquarter (by positivity)

lemma Covers.mem_decades {d : ℕ} {v : ℚ} (hd : d = 400) (h : x.Covers v) (hx : x.isZero = false) :
    (10 : ℚ) ^ (-d : ℤ) < v ∧ v < (10 : ℚ) ^ (d : ℤ) := by
  obtain ⟨k, hk⟩ : ∃ k, k = 1074 := ⟨_, rfl⟩
  obtain ⟨m, hm⟩ : ∃ m, m = 1024 := ⟨_, rfl⟩
  obtain ⟨hlow, hhigh⟩ := h.mem_binades hk hm hx
  rw [zpow_neg, zpow_natCast, inv_lt_iff_one_lt_mul₀ (by positivity)]
  have hpos : (0 : ℚ) < 2 ^ k := by positivity
  constructor
  · have hten : (2 : ℚ) ^ (k + 2) ≤ 10 ^ d := two_pow_le_ten_pow (by omega)
    rw [pow_add] at hten
    have hv : 0 ≤ v := by
      by_contra hv
      nlinarith
    have hmul := mul_le_mul_of_nonneg_left hten hv
    linarith
  · have hten : (2 : ℚ) ^ (m + 1) ≤ 10 ^ d := two_pow_le_ten_pow (by omega)
    rw [pow_add] at hten
    have hpos : (0 : ℚ) < 2 ^ m := by positivity
    linarith

lemma toDigits_bounds {n places : ℕ} (hn : n ≠ 0) (h : (Nat.toDigits 10 n).length = places) :
    (10 : ℚ) ^ ((places : ℤ) - 1) ≤ n ∧ (n : ℚ) < 10 ^ (places : ℤ) := by
  have hpos : 0 < places := h ▸ Nat.length_toDigits_pos
  have hlast : (places : ℤ) - 1 = (places - 1 : ℕ) := by omega
  rw [hlast, zpow_natCast, zpow_natCast]
  constructor
  · by_contra hlt
    have hlt : n < 10 ^ (places - 1) := by
      exact_mod_cast not_le.mp hlt
    by_cases hone : places = 1
    · rw [hone] at hlt
      simp at hlt
      omega
    · have hle := (Nat.length_toDigits_le_iff (by decide) (by omega)).mpr hlt
      omega
  · exact_mod_cast (Nat.length_toDigits_le_iff (by decide) hpos).mp h.le

/-- A decimal in the rounding interval of a double other than zero is rounded to the double. -/
theorem ofDecimal?_of_covers {digits : ℕ} {exponent : ℤ} (hx : x.isZero = false)
    (h : x.Covers (digits * 10 ^ exponent)) : ofDecimal? x.negative digits exponent = some x := by
  obtain ⟨d, hd⟩ : ∃ d, d = 400 := ⟨_, rfl⟩
  obtain ⟨hlow, hhigh⟩ := h.mem_decades hd hx
  have hten : (0 : ℚ) < 10 ^ exponent := by positivity
  have hdigits : digits ≠ 0 := by
    rintro rfl
    rw [Nat.cast_zero, zero_mul] at hlow
    exact absurd hlow (not_lt.mpr (by positivity))
  obtain ⟨places, hplaces⟩ : ∃ places, (Nat.toDigits 10 digits).length = places := ⟨_, rfl⟩
  obtain ⟨hleading, hnext⟩ := toDigits_bounds hdigits hplaces
  have hsmall : ¬ exponent + places < -400 := by
    intro hsmall
    have hle : (10 : ℚ) ^ (exponent + places) ≤ 10 ^ (-d : ℤ) :=
      zpow_le_zpow_right₀ (by norm_num) (by omega)
    rw [zpow_add₀ (by norm_num), mul_comm] at hle
    have hmul := mul_lt_mul_of_pos_right hnext hten
    linarith
  have hlarge : ¬ 400 < exponent + places := by
    intro hlarge
    have hle : (10 : ℚ) ^ (d : ℤ) ≤ 10 ^ (exponent + ((places : ℤ) - 1)) :=
      zpow_le_zpow_right₀ (by norm_num) (by omega)
    rw [zpow_add₀ (by norm_num), mul_comm] at hle
    have hmul := mul_le_mul_of_nonneg_right hleading hten.le
    linarith
  unfold ofDecimal?
  rw [hplaces]
  dsimp only
  rw [if_neg (not_or.mpr ⟨hdigits, hsmall⟩), if_neg hlarge]
  by_cases hneg : exponent < 0
  · rw [if_pos hneg]
    apply ofRatio?_of_covers (Nat.pow_pos (by decide))
    have hexponent : exponent = -(exponent.natAbs : ℤ) := by omega
    rw [hexponent, zpow_neg, zpow_natCast, ← div_eq_mul_inv] at h
    push_cast
    exact h
  · rw [if_neg hneg]
    apply ofRatio?_of_covers Nat.one_pos
    have hexponent : exponent = (exponent.natAbs : ℤ) := by omega
    rw [hexponent, zpow_natCast] at h
    rw [Nat.pow_eq]
    push_cast
    rw [div_one]
    exact h

lemma eq_zero_of_isZero (hx : x.isZero = true) : x = zero x.negative := by
  have hmantissa : x.mantissa = 0 := by simpa [isZero] using hx
  have hexponent : x.exponent = 0 := by
    refine x.normalized.resolve_right (fun hfull => ?_)
    rw [hmantissa] at hfull
    cases hfull
  obtain ⟨negative, mantissa, exponent⟩ := x
  obtain rfl : mantissa = 0 := hmantissa
  obtain rfl : exponent = 0 := hexponent
  rfl

lemma ofDecimal?_zero (negative : Bool) (exponent : ℤ) :
    ofDecimal? negative 0 exponent = some (zero negative) := by
  unfold ofDecimal?
  exact if_pos (.inl rfl)

lemma ofRatio?_zero (negative : Bool) : ofRatio? negative 0 1 = some (zero negative) := by
  apply ofRatio?_of_covers (x := zero negative) Nat.one_pos
  rw [covers_div Nat.one_pos, roundingInterval_eq, magnitude_eq]
  have heven : (zero negative).mantissa % 2 = 0 := rfl
  have hzero : (zero negative).mantissa = 0 := rfl
  rw [if_pos heven, hzero]
  omega

variable {n : ℤ}

lemma ratioExponent_one_le {k num : ℕ} (hk : k = 1074) (h : num < 2 ^ 64) :
    ratioExponent num 1 ≤ k + 11 := by
  rw [ratioExponent, Nat.div_one, scale_eq hk]
  by_cases hzero : num * 2 ^ k = 0
  · rw [hzero]
    exact Nat.zero_le _
  · have hlog : (num * 2 ^ k).log2 < 64 + k := by
      rw [Nat.log2_lt hzero, Nat.pow_add]
      exact Nat.mul_lt_mul_of_pos_right h (Nat.two_pow_pos k)
    omega

lemma ofRatio?_natAbs (h : n.natAbs < 2 ^ 64) :
    ofRatio? (decide (n < 0)) n.natAbs 1 = some (ofInt n) ∧
      (ofInt n).negative = decide (n < 0) ∧
      (ofInt n).magnitude = ratioMantissa n.natAbs 1 * 2 ^ ratioExponent n.natAbs 1 := by
  obtain ⟨k, hk⟩ : ∃ k, k = 1074 := ⟨_, rfl⟩
  have hexponent := ratioExponent_one_le hk h
  obtain ⟨y, hy, hsign, hmagnitude⟩ :=
    exists_ofRatio? (decide (n < 0)) (le_trans hexponent (by omega))
  have hofInt : ofInt n = y := by
    rw [ofInt, hy]
    rfl
  rw [hofInt]
  exact ⟨hy, hsign, hmagnitude⟩

lemma ofDecimal?_natAbs (h : n.natAbs < 2 ^ 64) :
    ofDecimal? (decide (n < 0)) n.natAbs 0 = some (ofInt n) := by
  have hround := (ofRatio?_natAbs h).1
  by_cases hzero : n.natAbs = 0
  · rw [hzero, ofRatio?_zero] at hround
    rw [hzero, ofDecimal?_zero, hround]
  · have hlength : (Nat.toDigits 10 n.natAbs).length ≤ 20 :=
      (Nat.length_toDigits_le_iff (by decide) (by decide)).mpr (by omega)
    unfold ofDecimal?
    dsimp only
    rw [if_neg (by omega), if_neg (by omega), if_neg (by decide)]
    simpa using hround

lemma le_truncate_ofInt (hlow : 2 ^ 63 ≤ n) (hhigh : n < 2 ^ 64) : 2 ^ 63 ≤ (ofInt n).truncate := by
  obtain ⟨k, hk⟩ : ∃ k, k = 1074 := ⟨_, rfl⟩
  have hword : n.natAbs < 2 ^ 64 := by omega
  have hpositive : (ofInt n).negative = false := by
    rw [(ofRatio?_natAbs hword).2.1]
    exact decide_eq_false (by omega)
  have hexponent : ratioExponent n.natAbs 1 ≤ 63 + k :=
    le_trans (ratioExponent_one_le hk hword) (by omega)
  have hmagnitude : 2 ^ 63 * scale ≤ (ofInt n).magnitude := by
    rw [(ofRatio?_natAbs hword).2.2, scale_eq hk, ← Nat.pow_add]
    apply le_ratioMantissa Nat.one_pos hexponent
    rw [scale_eq hk, Nat.pow_add, Nat.mul_one]
    exact Nat.mul_le_mul_right _ (by omega)
  have hunits : (ofInt n).units = ((ofInt n).magnitude : ℤ) := by
    rw [units, hpositive]
    rfl
  have hscale : (0 : ℤ) < scale := by exact_mod_cast scale_pos
  rw [truncate, hunits, Int.tdiv_eq_ediv_of_nonneg (Int.natCast_nonneg _),
    Int.le_ediv_iff_mul_le hscale]
  exact_mod_cast hmagnitude

end Binary64

end RecordMapping

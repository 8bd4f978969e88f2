import RecordMapping.Proofs.Number.Literals

namespace RecordMapping

namespace Literal

variable {negative : Bool} {whole fraction digits tail : List Char}

/-- Whether a text starts with a digit and is read to its end in front of whatever does not continue
it, always as the same number, unless it is never read. -/
structure TakenWhole (negative : Bool) (text : List Char) : Prop where
  head : ∃ c ∈ text.head?, c.isDigit
  taken : ∃ found : Option Number, ∀ rest, EndsLiteral rest →
    unsigned? negative (text ++ rest) = found.map fun n => (n, rest)

/-- Whether a text behind the digits of a double is read to the end in the same way. -/
structure EndsDouble (tail : List Char) : Prop where
  head : ∀ c ∈ tail.head?, c.isDigit = false
  taken (negative : Bool) (significand : ℕ) (places : ℤ) : ∃ found : Option Number, ∀ rest,
    EndsLiteral rest →
      floatTail? negative significand places (tail ++ rest) = found.map fun n => (n, rest)

lemma floatTail?_of_ends {rest : List Char} (h : EndsLiteral rest) (negative : Bool)
    (significand : ℕ) (places : ℤ) :
    floatTail? negative significand places rest =
      (float? negative significand places).bind fun x => some (.float x, rest) := by
  cases rest with
  | nil => rfl
  | cons c rest =>
    obtain ⟨-, -, he, hE⟩ := h c rfl
    simp [floatTail?, he, hE]

lemma endsDouble_nil : EndsDouble [] := by
  refine ⟨by simp, fun negative significand places => ?_⟩
  refine ⟨(float? negative significand places).map .float, fun rest hrest => ?_⟩
  rw [List.nil_append, floatTail?_of_ends hrest, Option.map_map]
  exact Option.map_eq_bind.symm

lemma endsDouble_exponent (hne : digits ≠ []) (hdigits : ∀ c ∈ digits, c.isDigit) {sign : Char}
    (hsign : sign = '-' ∨ sign = '+') : EndsDouble ('e' :: sign :: digits) := by
  have hempty : digits.isEmpty = false := by simpa using hne
  obtain ⟨down, hdown⟩ : ∃ down, ∀ text, splitSign (sign :: text) = (down, text) := by
    obtain rfl | rfl := hsign
    · exact ⟨true, fun text => rfl⟩
    · exact ⟨false, fun text => rfl⟩
  refine ⟨by simp, fun negative significand places => ?_⟩
  have hread (rest : List Char) (hrest : EndsLiteral rest) :
      floatTail? negative significand places ('e' :: sign :: digits ++ rest) =
        if (exponentMax : ℤ) < digitsValue digits then
          if significand ≠ 0 ∧ !down then none else some (.float (.zero negative), rest)
        else (float? negative significand (if down then places - digitsValue digits
          else places + digitsValue digits)).bind fun x => some (.float x, rest) := by
    simp only [List.cons_append, floatTail?, afterExponent?, hdown,
      splitDigits_of_all hdigits hrest.head_not_digit, hempty, Bool.false_eq_true, if_false]
    rfl
  by_cases hlarge : (exponentMax : ℤ) < digitsValue digits
  · by_cases hinfinite : significand ≠ 0 ∧ !down
    · refine ⟨none, fun rest hrest => ?_⟩
      rw [hread rest hrest, if_pos hlarge, if_pos hinfinite]
      rfl
    · refine ⟨some (.float (.zero negative)), fun rest hrest => ?_⟩
      rw [hread rest hrest, if_pos hlarge, if_neg hinfinite]
      rfl
  · refine ⟨(float? negative significand (if down then places - digitsValue digits
      else places + digitsValue digits)).map .float, fun rest hrest => ?_⟩
    rw [hread rest hrest, if_neg hlarge, Option.map_map]
    exact Option.map_eq_bind.symm

lemma EndsDouble.head_append (h : EndsDouble tail) {rest : List Char} (hrest : EndsLiteral rest) :
    ∀ c ∈ (tail ++ rest).head?, c.isDigit = false := by
  cases tail with
  | nil => exact hrest.head_not_digit
  | cons c tail => exact h.head

lemma unsigned?_digits (hwhole : ∀ c ∈ whole, c.isDigit)
    (htail : ∀ c ∈ tail.head?, c.isDigit = false) :
    unsigned? negative (whole ++ tail) =
      if whole.isEmpty || (whole.head? == some '0' && 1 < whole.length) then none
      else afterWhole? negative (keepDigits 0 whole).1 (keepDigits 0 whole).2 tail := by
  rw [unsigned?, splitDigits_of_all hwhole htail]

lemma takenWhole_point (hne : whole ≠ []) (hwhole : ∀ c ∈ whole, c.isDigit)
    (hfractionNe : fraction ≠ []) (hfraction : ∀ c ∈ fraction, c.isDigit)
    (htail : EndsDouble tail) : TakenWhole negative (whole ++ '.' :: (fraction ++ tail)) := by
  have hempty : fraction.isEmpty = false := by simpa using hfractionNe
  obtain ⟨found, hfound⟩ := htail.taken negative (keepDigits (keepDigits 0 whole).1 fraction).1
    ((keepDigits 0 whole).2 -
      (fraction.length - (keepDigits (keepDigits 0 whole).1 fraction).2 : ℕ))
  refine ⟨head?_digits_append hne hwhole _, if whole.isEmpty || (whole.head? == some '0' &&
    1 < whole.length) then none else found, fun rest hrest => ?_⟩
  have hpoint : (∀ c ∈ ('.' :: (fraction ++ (tail ++ rest))).head?, c.isDigit = false) := by simp
  have htext : whole ++ '.' :: (fraction ++ tail) ++ rest =
      whole ++ '.' :: (fraction ++ (tail ++ rest)) := by simp
  rw [htext, unsigned?_digits hwhole hpoint]
  split
  · rfl
  · simp only [afterWhole?, splitDigits_of_all hfraction (htail.head_append hrest), hempty,
      Bool.false_eq_true, if_false]
    exact hfound rest hrest

lemma takenWhole_exponent (hne : whole ≠ []) (hwhole : ∀ c ∈ whole, c.isDigit)
    (htail : EndsDouble ('e' :: tail)) : TakenWhole negative (whole ++ 'e' :: tail) := by
  obtain ⟨found, hfound⟩ := htail.taken negative (keepDigits 0 whole).1 (keepDigits 0 whole).2
  refine ⟨head?_digits_append hne hwhole _, if whole.isEmpty || (whole.head? == some '0' &&
    1 < whole.length) then none else found, fun rest hrest => ?_⟩
  rw [List.append_assoc, unsigned?_digits hwhole (htail.head_append hrest)]
  split
  · rfl
  · rw [← hfound rest hrest]
    simp [afterWhole?]

end Literal

namespace FloatLayout

open Literal

variable {negative : Bool} {digits : List Char}

lemma takenWhole_positional (hne : digits ≠ []) (hdigits : ∀ c ∈ digits, c.isDigit) (place : ℤ) :
    TakenWhole negative (positional digits place) := by
  have hzeros {n : ℕ} {c : Char} (hc : c ∈ List.replicate n '0') : c.isDigit := by
    obtain rfl := List.eq_of_mem_replicate hc
    decide
  unfold positional
  by_cases hneg : place < 0
  · have htaken := @takenWhole_point negative ['0']
      (List.replicate (place.natAbs - 1) '0' ++ digits) [] (by simp) (by simp) (by simp [hne])
      (List.forall_mem_append.mpr ⟨fun c hc => hzeros hc, hdigits⟩) endsDouble_nil
    rw [if_pos hneg]
    simpa using htaken
  · have hwhole : ∀ c ∈ digits.take (place.natAbs + 1) ++
        List.replicate (place.natAbs + 1 - digits.length) '0', c.isDigit :=
      List.forall_mem_append.mpr
        ⟨fun c hc => hdigits c (List.mem_of_mem_take hc), fun c hc => hzeros hc⟩
    rw [if_neg hneg]
    dsimp only
    by_cases hempty : (digits.drop (place.natAbs + 1)).isEmpty
    · rw [if_pos hempty]
      exact takenWhole_point (by simp [hne]) hwhole (List.cons_ne_nil '0' []) (by simp)
        endsDouble_nil
    · have htaken := @takenWhole_point negative _ _ [] (by simp [hne]) hwhole
        (by simpa using hempty) (fun c hc => hdigits c (List.mem_of_mem_drop hc)) endsDouble_nil
      rw [if_neg hempty]
      rwa [List.append_nil] at htaken

lemma takenWhole_scientific (hdigits : ∀ c ∈ digits, c.isDigit) (place : ℤ) :
    TakenWhole negative (scientific digits place) := by
  have hsign : (if place < 0 then '-' else '+') = '-' ∨ (if place < 0 then '-' else '+') = '+' := by
    split <;> simp
  have hexponent := endsDouble_exponent Nat.toDigits_ne_nil
    (fun c (hc : c ∈ Nat.toDigits 10 place.natAbs) => isDigit_of_mem_toDigits hc) hsign
  cases digits with
  | nil => exact @takenWhole_exponent negative ['0'] _ (by simp) (by simp) hexponent
  | cons d rest =>
    obtain ⟨hd, hrest⟩ := List.forall_mem_cons.mp hdigits
    have hwhole : ∀ c ∈ [d], c.isDigit := by simpa using hd
    cases rest with
    | nil => exact takenWhole_exponent (by simp) hwhole hexponent
    | cons e rest => exact takenWhole_point (by simp) hwhole (by simp) hrest hexponent

lemma exists_takenWhole (layout : FloatLayout) (x : Binary64) :
    ∃ text, layout.write x = (if x.negative then '-' :: text else text) ∧
      TakenWhole x.negative text := by
  have hdigits : ∀ c ∈ Nat.toDigits 10 x.shortest.digits, c.isDigit :=
    fun c hc => isDigit_of_mem_toDigits hc
  refine ⟨_, rfl, ?_⟩
  split_ifs
  · exact takenWhole_positional Nat.toDigits_ne_nil hdigits _
  · exact takenWhole_scientific hdigits _

end FloatLayout

namespace Literal

/-- The text of a double is read in one way only, whatever follows it. -/
lemma exists_read?_write (layout : FloatLayout) (x : Binary64) :
    ∃ found : Option Number, ∀ rest, EndsLiteral rest →
      read? (layout.write x ++ rest) = found.map fun n => (n, rest) := by
  obtain ⟨text, hwrite, ⟨c, hc, hdigit⟩, found, hfound⟩ := layout.exists_takenWhole x
  refine ⟨found, fun rest hrest => ?_⟩
  obtain ⟨others, rfl⟩ := List.head?_eq_some_iff.mp hc
  rw [hwrite]
  cases hx : x.negative with
  | true =>
    rw [hx] at hfound
    exact hfound rest hrest
  | false =>
    rw [hx] at hfound
    refine Eq.trans (read?_of_head ?_) (hfound rest hrest)
    simpa using (ne_sign_of_isDigit hdigit).1

end Literal

namespace Number

lemma text_ne_nil (n : Number) : n.text ≠ [] := by
  cases n with
  | integer value fits => exact (legible_integer value fits).text_ne_nil
  | float x =>
    obtain ⟨text, hwrite, ⟨c, hc, -⟩, -⟩ := layout.exists_takenWhole x
    obtain ⟨others, rfl⟩ := List.head?_eq_some_iff.mp hc
    rw [Number.text, hwrite]
    split <;> exact List.cons_ne_nil _ _

/-- Where the text of a number is read, it is read to the end, and if it gives the number, the
number is read back from the text alone. -/
theorem read?_text_append {n found : Number} {rest after : List Char} (hrest : EndsLiteral rest)
    (h : Literal.read? (n.text ++ rest) = some (found, after)) :
    after = rest ∧ (found = n → n.Legible) := by
  cases n with
  | integer value fits =>
    have hread := Literal.read?_append hrest (Literal.read?_integerText fits)
    rw [text, hread] at h
    exact ⟨(Prod.mk.inj (Option.some.inj h)).2.symm, fun _ => legible_integer value fits⟩
  | float x =>
    obtain ⟨read, hread⟩ := Literal.exists_read?_write layout x
    rw [text, hread rest hrest] at h
    obtain ⟨n, rfl, hn⟩ := Option.map_eq_some_iff.mp h
    obtain ⟨rfl, rfl⟩ := Prod.mk.inj hn
    refine ⟨rfl, ?_⟩
    rintro rfl
    have halone := hread [] endsLiteral_nil
    rwa [List.append_nil] at halone

end Number

end RecordMapping

import Mathlib
import RecordMapping.Number.Numeral
import RecordMapping.Proofs.Text.Runs

namespace RecordMapping

/-- Whether a text does not continue a literal that ends before it. -/
def EndsLiteral (rest : List Char) : Prop :=
  ∀ c ∈ rest.head?, c.isDigit = false ∧ c ≠ '.' ∧ c ≠ 'e' ∧ c ≠ 'E'

lemma endsLiteral_nil : EndsLiteral [] := by simp [EndsLiteral]

lemma endsLiteral_cons {c : Char} (hdigit : c.isDigit = false) (hpoint : c ≠ '.') (he : c ≠ 'e')
    (hE : c ≠ 'E') (rest : List Char) : EndsLiteral (c :: rest) := by
  simp [EndsLiteral, hdigit, hpoint, he, hE]

lemma EndsLiteral.head_not_digit {rest : List Char} (h : EndsLiteral rest) :
    ∀ c ∈ rest.head?, c.isDigit = false := fun c hc => (h c hc).1

lemma splitDigits_append {rest : List Char} (h : ∀ c ∈ rest.head?, c.isDigit = false)
    (text : List Char) :
    splitDigits (text ++ rest) = ((splitDigits text).1, (splitDigits text).2 ++ rest) := by
  obtain ⟨htake, hdrop⟩ := takeWhile_append_of_head h text
  simp only [splitDigits, htake, hdrop]

lemma splitDigits_of_all {digits rest : List Char} (hdigits : ∀ c ∈ digits, c.isDigit)
    (hrest : ∀ c ∈ rest.head?, c.isDigit = false) :
    splitDigits (digits ++ rest) = (digits, rest) := by
  obtain ⟨htake, hdrop⟩ := takeWhile_append_of_run hdigits hrest
  rw [splitDigits, htake, hdrop]

lemma head?_digits_append {digits : List Char} (hne : digits ≠ [])
    (hdigits : ∀ c ∈ digits, c.isDigit) (rest : List Char) :
    ∃ c ∈ (digits ++ rest).head?, c.isDigit := by
  obtain ⟨c, others, rfl⟩ := List.exists_cons_of_ne_nil hne
  exact ⟨c, rfl, hdigits c List.mem_cons_self⟩

lemma isDigit_of_mem_toDigits {n : Nat} {c : Char} (h : c ∈ Nat.toDigits 10 n) : c.isDigit :=
  Nat.isDigit_of_mem_toDigits (by decide) (by decide) h

lemma ne_sign_of_isDigit {c : Char} (h : c.isDigit) : c ≠ '-' ∧ c ≠ '+' := by
  constructor <;> rintro rfl <;> cases h

lemma splitSign_of_isDigit {c : Char} (h : c.isDigit) (rest : List Char) :
    splitSign (c :: rest) = (false, c :: rest) := by
  obtain ⟨hminus, hplus⟩ := ne_sign_of_isDigit h
  simp [splitSign, hminus, hplus]

lemma digitsValue_replicate_append (zeros : Nat) (digits : List Char) :
    digitsValue (List.replicate zeros '0' ++ digits) = digitsValue digits := by
  rw [digitsValue, Nat.ofDigitChars_append, Nat.ofDigitChars_replicate_zero, Nat.mul_zero,
    digitsValue]

lemma head?_toDigits_ne_zero {n : Nat} (h : n ≠ 0) : (Nat.toDigits 10 n).head? ≠ some '0' := by
  induction n using Nat.strong_induction_on with
  | _ n ih =>
    rw [Nat.toDigits_eq_if (by decide)]
    split
    · rename_i hlt
      interval_cases n <;> simp_all
    · have hdiv : n / 10 ≠ 0 := by omega
      have hhead := ih (n / 10) (by omega) hdiv
      rw [List.head?_append_of_ne_nil _ Nat.toDigits_ne_nil]
      exact hhead

namespace Literal

def afterWhole? (negative : Bool) (significand dropped : Nat) (rest : List Char) :
    Option (Number × List Char) :=
  match rest with
  | '.' :: after =>
    let (fraction, tail) := splitDigits after
    let (kept, left) := keepDigits significand fraction
    if fraction.isEmpty then none
    else floatTail? negative kept (dropped - (fraction.length - left : Nat)) tail
  | c :: _ =>
    if c = 'e' ∨ c = 'E' ∨ dropped ≠ 0 then floatTail? negative significand dropped rest
    else some (integerValue negative significand, rest)
  | [] =>
    if dropped ≠ 0 then floatTail? negative significand dropped []
    else some (integerValue negative significand, [])

def unsigned? (negative : Bool) (text : List Char) : Option (Number × List Char) :=
  let (whole, rest) := splitDigits text
  let (significand, dropped) := keepDigits 0 whole
  if whole.isEmpty || (whole.head? == some '0' && 1 < whole.length) then none
  else afterWhole? negative significand dropped rest

lemma read?_minus (text : List Char) : read? ('-' :: text) = unsigned? true text := rfl

lemma read?_of_head {text : List Char} (h : text.head? ≠ some '-') :
    read? text = unsigned? false text := by
  cases text with
  | nil => rfl
  | cons c rest =>
    have hc : c ≠ '-' := by simpa using h
    unfold read?
    split
    rename_i negative unsigned hsign
    split at hsign
    · rename_i heq
      exact absurd (List.cons.inj heq).1 hc
    · obtain ⟨rfl, rfl⟩ := Prod.mk.inj hsign
      rfl

variable {negative : Bool} {significand : Nat} {places : Int} {text rest : List Char}
  {n : Number}

lemma splitSign_append (h : text ≠ []) (rest : List Char) :
    splitSign (text ++ rest) = ((splitSign text).1, (splitSign text).2 ++ rest) := by
  cases text with
  | nil => exact absurd rfl h
  | cons c text =>
    by_cases hminus : c = '-'
    · simp [splitSign, hminus]
    · by_cases hplus : c = '+'
      · simp [splitSign, hplus]
      · simp [splitSign, hminus, hplus]

lemma afterExponent?_append (hrest : EndsLiteral rest)
    (h : afterExponent? negative significand places text = some (n, [])) :
    afterExponent? negative significand places (text ++ rest) = some (n, rest) := by
  have hne : text ≠ [] := by
    rintro rfl
    simp [afterExponent?, splitSign, splitDigits] at h
  simp only [afterExponent?, splitSign_append hne, splitDigits_append hrest.head_not_digit] at h ⊢
  split at h
  · cases h
  · rename_i hdigits
    rw [if_neg hdigits]
    split at h
    · rename_i hlarge
      rw [if_pos hlarge]
      split at h
      · cases h
      · rename_i hfinite
        rw [if_neg hfinite]
        obtain ⟨rfl, htail⟩ := Prod.mk.inj (Option.some.inj h)
        rw [htail, List.nil_append]
    · rename_i hsmall
      rw [if_neg hsmall]
      obtain ⟨x, hx, hresult⟩ := Option.bind_eq_some_iff.mp h
      obtain ⟨rfl, htail⟩ := Prod.mk.inj (Option.some.inj hresult)
      rw [hx, htail]
      rfl

lemma floatTail?_append (hrest : EndsLiteral rest)
    (h : floatTail? negative significand places text = some (n, [])) :
    floatTail? negative significand places (text ++ rest) = some (n, rest) := by
  unfold floatTail? at h
  split at h
  · exact afterExponent?_append hrest h
  · exact afterExponent?_append hrest h
  · obtain ⟨x, hx, hresult⟩ := Option.bind_eq_some_iff.mp h
    obtain ⟨rfl, rfl⟩ := Prod.mk.inj (Option.some.inj hresult)
    cases rest with
    | nil => simp [floatTail?, hx]
    | cons c rest =>
      obtain ⟨-, -, he, hE⟩ := hrest c rfl
      simp [floatTail?, hx, he, hE]

lemma afterWhole?_append {dropped : Nat} (hrest : EndsLiteral rest)
    (h : afterWhole? negative significand dropped text = some (n, [])) :
    afterWhole? negative significand dropped (text ++ rest) = some (n, rest) := by
  unfold afterWhole? at h
  split at h
  · rename_i after
    simp only [afterWhole?, List.cons_append, splitDigits_append hrest.head_not_digit] at h ⊢
    split at h
    · cases h
    · rename_i hfraction
      rw [if_neg hfraction]
      exact floatTail?_append hrest h
  · rename_i c after hpoint
    split at h
    · rename_i hfloat
      have hread := floatTail?_append hrest h
      simpa only [afterWhole?, List.cons_append, if_pos hfloat] using hread
    · cases h
  · cases rest with
    | nil => exact h
    | cons c rest =>
      obtain ⟨-, hpoint, he, hE⟩ := hrest c rfl
      split at h
      · rename_i hdropped
        have hread := floatTail?_append hrest h
        simpa [afterWhole?, hdropped] using hread
      · rename_i hdropped
        obtain ⟨rfl, -⟩ := Prod.mk.inj (Option.some.inj h)
        simp [afterWhole?, he, hE, hdropped]

lemma unsigned?_append (hrest : EndsLiteral rest) (h : unsigned? negative text = some (n, [])) :
    unsigned? negative (text ++ rest) = some (n, rest) := by
  simp only [unsigned?, splitDigits_append hrest.head_not_digit] at h ⊢
  split at h
  · cases h
  · rename_i hwhole
    rw [if_neg hwhole]
    exact afterWhole?_append hrest h

/-- A literal that takes a whole text is read in front of what does not continue it. -/
theorem read?_append (hrest : EndsLiteral rest) (h : read? text = some (n, [])) :
    read? (text ++ rest) = some (n, rest) := by
  by_cases hminus : text.head? = some '-'
  · obtain ⟨unsigned, rfl⟩ := List.head?_eq_some_iff.mp hminus
    rw [List.cons_append, read?_minus]
    exact unsigned?_append hrest h
  · have hne : text ≠ [] := by
      rintro rfl
      cases h
    rw [read?_of_head hminus] at h
    rw [read?_of_head (by rwa [List.head?_append_of_ne_nil _ hne])]
    exact unsigned?_append hrest h

lemma le_ofDigitChars (digits : List Char) (init : Nat) :
    init ≤ Nat.ofDigitChars 10 digits init := by
  induction digits generalizing init with
  | nil => simp
  | cons c digits ih =>
    rw [Nat.ofDigitChars_cons]
    exact le_trans (by omega) (ih _)

lemma keepDigits_eq {digits : List Char}
    (h : Nat.ofDigitChars 10 digits significand < wordEnd) :
    keepDigits significand digits = (Nat.ofDigitChars 10 digits significand, 0) := by
  induction digits generalizing significand with
  | nil => simp [keepDigits]
  | cons c digits ih =>
    rw [Nat.ofDigitChars_cons, Nat.mul_comm] at h ⊢
    have hnext : ¬ wordEnd ≤ significand * 10 + (c.toNat - '0'.toNat) :=
      not_le.mpr (lt_of_le_of_lt (le_ofDigitChars digits _) h)
    simp only [keepDigits, if_neg hnext]
    exact ih h

lemma unsigned?_toDigits (negative : Bool) {k : Nat} (h : k < wordEnd) :
    unsigned? negative (Nat.toDigits 10 k) = some (integerValue negative k, []) := by
  have hsplit : splitDigits (Nat.toDigits 10 k) = (Nat.toDigits 10 k, []) := by
    simpa using splitDigits_of_all (fun c hc => isDigit_of_mem_toDigits hc)
      endsLiteral_nil.head_not_digit
  have hvalue : Nat.ofDigitChars 10 (Nat.toDigits 10 k) 0 = k := Nat.ofDigitChars_ten_toDigits
  have hkeep : keepDigits 0 (Nat.toDigits 10 k) = (k, 0) := by
    rw [keepDigits_eq (by rwa [hvalue]), hvalue]
  have hzero : ((Nat.toDigits 10 k).head? == some '0' && decide (1 < (Nat.toDigits 10 k).length)) =
      false := by
    by_cases hk : k = 0
    · simp [hk]
    · simp [head?_toDigits_ne_zero hk]
  simp [unsigned?, hsplit, hkeep, hzero, Nat.toDigits_ne_nil, afterWhole?]

theorem read?_integerText {value : Int} (fits : FitsWord value) :
    read? (integerText value) = some (.integer value fits, []) := by
  have hofInt : Number.ofInt value = .integer value fits := dif_pos fits
  have hword : value.natAbs < wordEnd := by
    simp only [FitsWord, signedEnd, wordEnd] at fits ⊢
    omega
  by_cases hneg : value < 0
  · have hvalue : -(value.natAbs : Int) = value := by omega
    have hne : value.natAbs ≠ 0 := by omega
    rw [integerText, if_pos hneg, read?_minus, unsigned?_toDigits true hword]
    simp only [integerValue, if_true, if_neg hne, hvalue, hofInt]
  · have hvalue : (value.natAbs : Int) = value := by omega
    have hhead : (Nat.toDigits 10 value.natAbs).head? ≠ some '-' := by
      intro hhead
      have hdigit := isDigit_of_mem_toDigits (List.mem_of_mem_head? hhead)
      exact absurd hdigit (by decide)
    rw [integerText, if_neg hneg, read?_of_head hhead, unsigned?_toDigits false hword]
    simp only [integerValue, Bool.false_eq_true, if_false, hvalue, hofInt]

end Literal

def isNumeralChar (c : Char) : Bool :=
  c.isDigit || c == '-' || c == '+' || c == '.' || c == 'e'

lemma isNumeralChar_of_mem_toDigits {n : Nat} {c : Char} (h : c ∈ Nat.toDigits 10 n) :
    isNumeralChar c := by
  simp [isNumeralChar, isDigit_of_mem_toDigits h]

namespace FloatLayout

lemma isNumeralChar_positional {digits : List Char} (h : ∀ c ∈ digits, isNumeralChar c)
    (leadingPlace : Int) : ∀ c ∈ positional digits leadingPlace, isNumeralChar c := by
  intro c hc
  have hzero : isNumeralChar '0' := by decide
  have hpoint : isNumeralChar '.' := by decide
  unfold positional at hc
  split at hc
  · simp only [List.mem_cons, List.mem_append, List.mem_replicate] at hc
    obtain rfl | rfl | ⟨-, rfl⟩ | hc := hc
    · exact hzero
    · exact hpoint
    · exact hzero
    · exact h c hc
  · simp only [List.mem_cons, List.mem_append, List.mem_replicate] at hc
    obtain (hc | ⟨-, rfl⟩) | rfl | hc := hc
    · exact h c (List.mem_of_mem_take hc)
    · exact hzero
    · exact hpoint
    · split at hc
      · obtain rfl := List.mem_singleton.mp hc
        exact hzero
      · exact h c (List.mem_of_mem_drop hc)

lemma isNumeralChar_scientific {digits : List Char} (h : ∀ c ∈ digits, isNumeralChar c)
    (leadingPlace : Int) : ∀ c ∈ scientific digits leadingPlace, isNumeralChar c := by
  intro c hc
  simp only [scientific, List.mem_append, List.mem_cons] at hc
  obtain hc | rfl | rfl | hc := hc
  · split at hc
    · obtain rfl := List.mem_singleton.mp hc
      decide
    · exact h c hc
    · simp only [List.mem_cons] at hc
      obtain rfl | rfl | hc := hc
      · exact h _ List.mem_cons_self
      · decide
      · exact h c (List.mem_cons_of_mem _ hc)
  · decide
  · split <;> decide
  · exact isNumeralChar_of_mem_toDigits hc

lemma isNumeralChar_write (layout : FloatLayout) (x : Binary64) :
    ∀ c ∈ layout.write x, isNumeralChar c := by
  have hdigits : ∀ c ∈ Nat.toDigits 10 x.shortest.digits, isNumeralChar c :=
    fun c hc => isNumeralChar_of_mem_toDigits hc
  have hunsigned (c : Char) (hc : c ∈ if layout.lowestPositional ≤ x.shortest.leadingPlace ∧
      x.shortest.leadingPlace < layout.firstScientific
      then positional (Nat.toDigits 10 x.shortest.digits) x.shortest.leadingPlace
      else scientific (Nat.toDigits 10 x.shortest.digits) x.shortest.leadingPlace) :
      isNumeralChar c := by
    split at hc
    · exact isNumeralChar_positional hdigits _ c hc
    · exact isNumeralChar_scientific hdigits _ c hc
  intro c hc
  unfold write at hc
  split at hc
  · obtain rfl | hc := List.mem_cons.mp hc
    · decide
    · exact hunsigned c hc
  · exact hunsigned c hc

end FloatLayout

namespace Number

/-- Whether a number is read back from its text. Integers always are; a double is when scaling its
digits rounds to it. -/
def Legible (n : Number) : Prop := Literal.read? n.text = some (n, [])

instance (n : Number) : Decidable n.Legible := inferInstanceAs (Decidable (_ = _))

lemma legible_integer (value : Int) (fits : FitsWord value) : (integer value fits).Legible :=
  Literal.read?_integerText fits

lemma isNumeralChar_of_mem_text {n : Number} {c : Char} (h : c ∈ n.text) : isNumeralChar c := by
  cases n with
  | integer value fits =>
    simp only [text, integerText] at h
    split at h
    · obtain rfl | h := List.mem_cons.mp h
      · decide
      · exact isNumeralChar_of_mem_toDigits h
    · exact isNumeralChar_of_mem_toDigits h
  | float x => exact FloatLayout.isNumeralChar_write layout x c h

lemma Legible.text_ne_nil {n : Number} (h : n.Legible) : n.text ≠ [] := by
  intro hnil
  rw [Legible, hnil] at h
  cases h

end Number

end RecordMapping

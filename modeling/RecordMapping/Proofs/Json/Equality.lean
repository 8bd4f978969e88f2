import RecordMapping.Proofs.Definition.Structures
import RecordMapping.Proofs.Number.Numerals

/-!
# Equality of documents

Documents are equal up to the order of their members and the sign of zeros. Main statements: between
documents of distinct names this is an equivalence, numbers of one text are one number, and of equal
numbers only the two zeros have different texts.
-/

namespace RecordMapping

namespace Binary64

variable {x y : Binary64}

lemma leading_le (x : Binary64) (h : x.exponent ≠ 0) : leading ≤ x.mantissa :=
  x.normalized.resolve_left h

lemma magnitude_lt (h : x.exponent < y.exponent) : x.magnitude < y.magnitude := by
  have hleading := y.leading_le (by omega)
  have hstep : 2 ^ (x.exponent + 1) ≤ 2 ^ y.exponent := Nat.pow_le_pow_right (by omega) h
  rw [magnitude, magnitude, Nat.pow_eq, Nat.pow_eq]
  calc x.mantissa * 2 ^ x.exponent
      < carry * 2 ^ x.exponent := Nat.mul_lt_mul_of_pos_right x.mantissa_lt (by positivity)
    _ = leading * 2 ^ (x.exponent + 1) := by rw [carry, leading, pow_succ]; omega
    _ ≤ y.mantissa * 2 ^ y.exponent := Nat.mul_le_mul hleading hstep

lemma ext_magnitude (hsign : x.negative = y.negative) (h : x.magnitude = y.magnitude) : x = y := by
  have hexponent : x.exponent = y.exponent := by
    obtain hlt | heq | hlt := lt_trichotomy x.exponent y.exponent
    · exact absurd h (magnitude_lt hlt).ne
    · exact heq
    · exact absurd h (magnitude_lt hlt).ne'
  have hmantissa : x.mantissa = y.mantissa := by
    rw [magnitude, magnitude, hexponent, Nat.pow_eq] at h
    exact Nat.eq_of_mul_eq_mul_right (by positivity) h
  cases x
  cases y
  simp_all

lemma eq_or_zero_of_same (h : x.same y) :
    x = y ∨ ∃ negative, x = zero negative ∧ y = zero !negative := by
  have hunits : x.units = y.units := beq_iff_eq.mp h
  by_cases hsign : x.negative = y.negative
  · left
    apply ext_magnitude hsign
    unfold units at hunits
    rw [hsign] at hunits
    split at hunits <;> omega
  · right
    have hzero : x.magnitude = 0 ∧ y.magnitude = 0 := by
      unfold units at hunits
      cases hx : x.negative <;> cases hy : y.negative <;> simp_all
    have hzeros (z : Binary64) (hz : z.magnitude = 0) : z = zero z.negative := by
      have hzero : (zero z.negative).magnitude = 0 := Nat.zero_mul _
      exact ext_magnitude rfl (hz.trans hzero.symm)
    refine ⟨x.negative, hzeros x hzero.1, ?_⟩
    rw [Bool.not_eq.mpr hsign]
    exact hzeros y hzero.2

end Binary64

namespace Number

variable {m n k : Number}

@[simp]
lemma same_refl (n : Number) : n.same n := by
  cases n with
  | integer value fits => exact beq_self_eq_true value
  | float x => exact beq_self_eq_true x.units

lemma same_comm (m n : Number) : m.same n = n.same m := by
  cases m with
  | integer a _ =>
    cases n with
    | integer b _ => exact BEq.comm
    | float y => rfl
  | float x =>
    cases n with
    | integer b _ => rfl
    | float y => exact BEq.comm (a := x.units)

lemma same_trans (hmn : m.same n) (hnk : n.same k) : m.same k := by
  cases m <;> cases n <;> cases k <;> simp_all [same, Binary64.same]

lemma eq_or_zero_of_same (h : m.same n) :
    m = n ∨ ∃ negative, m = .float (.zero negative) ∧ n = .float (.zero !negative) := by
  cases m with
  | integer a fits =>
    cases n with
    | integer b _ =>
      left
      obtain rfl := eq_of_beq h
      rfl
    | float y => cases h
  | float x =>
    cases n with
    | integer b _ => cases h
    | float y =>
      obtain rfl | ⟨negative, rfl, rfl⟩ := Binary64.eq_or_zero_of_same h
      · exact .inl rfl
      · exact .inr ⟨negative, rfl, rfl⟩

lemma integerText_ne_write (value : ℤ) (layout : FloatLayout) (x : Binary64) :
    integerText value ≠ layout.write x := by
  intro h
  obtain ⟨text, hwrite, hwrites⟩ := layout.exists_write_eq x
  obtain ⟨c, hc, hdigit⟩ := hwrites.mark
  have hsplit := congrArg splitSign h
  rw [Numeral.splitSign_integerText, hwrite, hwrites.splitSign_eq] at hsplit
  rw [← (Prod.mk.inj hsplit).2] at hc
  exact absurd (isDigit_of_mem_toDigits hc) (by simp [hdigit])

lemma integerText_injective : Function.Injective integerText := by
  intro a b h
  have hsplit := congrArg splitSign h
  rw [Numeral.splitSign_integerText, Numeral.splitSign_integerText, Prod.mk.injEq,
    decide_eq_decide] at hsplit
  have hdigits := congrArg (Nat.ofDigitChars 10 · 0) hsplit.2
  simp only [Nat.ofDigitChars_ten_toDigits] at hdigits
  omega

theorem text_injective : Function.Injective text := by
  intro m n h
  cases m with
  | integer a fits =>
    cases n with
    | integer b _ =>
      obtain rfl := integerText_injective h
      rfl
    | float y => exact absurd h (integerText_ne_write a layout y)
  | float x =>
    cases n with
    | integer b _ => exact absurd h.symm (integerText_ne_write b layout x)
    | float y =>
      have hread := Numeral.float?_write layout x
      have htext : layout.write x = layout.write y := h
      rw [htext, Numeral.float?_write] at hread
      rw [Option.some.inj hread]

end Number

lemma findMember_of_mem {name : String} {value : Json} {members : List Member}
    (distinct : (members.map Prod.fst).Nodup) (h : (name, value) ∈ members) :
    findMember name members = some value := by
  induction members with
  | nil => cases h
  | cons member others ih =>
    obtain ⟨key, old⟩ := member
    rw [List.map_cons, List.nodup_cons] at distinct
    unfold findMember
    obtain heq | h := List.mem_cons.mp h
    · cases heq
      exact if_pos rfl
    · have hne : key ≠ name := by
        rintro rfl
        exact distinct.1 (List.mem_map.mpr ⟨_, h, rfl⟩)
      rw [if_neg hne, ih distinct.2 h]

namespace Json

variable {i j : ℕ} {a b c : Json} {as bs : List Json} {ms ns : List Member}

lemma sameItems_iff : sameItems as bs ↔
    as.length = bs.length ∧ ∀ (n : ℕ) (ha : n < as.length) (hb : n < bs.length),
      as[n].same bs[n] := by
  induction as generalizing bs with
  | nil => cases bs <;> simp [sameItems]
  | cons a as ih =>
    cases bs with
    | nil => simp [sameItems]
    | cons b bs =>
      rw [sameItems, Bool.and_eq_true, ih]
      constructor
      · rintro ⟨hhead, hlength, hrest⟩
        refine ⟨congrArg (· + 1) hlength, fun n ha hb => ?_⟩
        cases n with
        | zero => exact hhead
        | succ n => exact hrest n (Nat.lt_of_succ_lt_succ ha) (Nat.lt_of_succ_lt_succ hb)
      · rintro ⟨hlength, hall⟩
        exact ⟨hall 0 (Nat.succ_pos _) (Nat.succ_pos _), Nat.succ.inj hlength,
          fun n ha hb => hall (n + 1) (Nat.succ_lt_succ ha) (Nat.succ_lt_succ hb)⟩

lemma sameMembers_iff :
    sameMembers ms ns ↔ ∀ m ∈ ms, ∃ b, findMember m.1 ns = some b ∧ m.2.same b := by
  induction ms with
  | nil => simp [sameMembers]
  | cons m ms ih =>
    obtain ⟨name, a⟩ := m
    rw [sameMembers, Bool.and_eq_true, ih, List.forall_mem_cons]
    cases findMember name ns <;> simp

lemma names_subset_of_sameMembers (distinct : (ms.map Prod.fst).Nodup)
    (hlength : ms.length = ns.length) (h : sameMembers ms ns) :
    ns.map Prod.fst ⊆ ms.map Prod.fst := by
  have hsubset : ms.map Prod.fst ⊆ ns.map Prod.fst := by
    intro name hname
    obtain ⟨m, hm, rfl⟩ := List.mem_map.mp hname
    obtain ⟨b, hb, -⟩ := sameMembers_iff.mp h m hm
    exact List.mem_map.mpr ⟨_, Decode.mem_of_findMember hb, rfl⟩
  have hperm := (List.subperm_of_subset distinct hsubset).perm_of_length_le (by simp [hlength])
  exact hperm.symm.subset

lemma same_object_iff : same (.object ms) (.object ns) ↔
    ms.length = ns.length ∧ ∀ m ∈ ms, ∃ b, findMember m.1 ns = some b ∧ m.2.same b := by
  rw [same, Bool.and_eq_true, beq_iff_eq, sameMembers_iff]

theorem same_refl (h : Formed i a) : a.same a := by
  induction h with
  | @scalar _ value h =>
    cases value with
    | list items => cases h
    | object members => cases h
    | _ => simp [same]
  | list h ih =>
    rw [same, sameItems_iff]
    exact ⟨rfl, fun n ha _ => ih _ (List.getElem_mem ha)⟩
  | object distinct h ih =>
    rw [same_object_iff]
    exact ⟨rfl, fun m hm => ⟨m.2, findMember_of_mem distinct hm, ih m hm⟩⟩

theorem same_symm (ha : Formed i a) (hb : Formed j b) (h : a.same b) : b.same a := by
  induction ha generalizing j b with
  | @scalar _ value hscalar =>
    cases value with
    | list items => cases hscalar
    | object members => cases hscalar
    | number n =>
      cases b with
      | number m => exact (Number.same_comm m n).trans h
      | _ => cases h
    | _ => cases b <;> simp_all [same]
  | list _ ih =>
    cases b with
    | list bs =>
      rw [same, sameItems_iff] at h ⊢
      refine ⟨h.1.symm, fun n hn hn' => ?_⟩
      cases hb with
      | scalar hscalar => cases hscalar
      | list hbs => exact ih _ (List.getElem_mem hn') (hbs _ (List.getElem_mem hn)) (h.2 n hn' hn)
    | _ => cases h
  | @object _ ms distinct _ ih =>
    cases b with
    | object ns =>
      rw [same_object_iff] at h ⊢
      refine ⟨h.1.symm, fun member hmember => ?_⟩
      obtain ⟨name, value⟩ := member
      cases hb with
      | scalar hscalar => cases hscalar
      | object distinct' hns =>
        have hname := names_subset_of_sameMembers distinct h.1 (sameMembers_iff.mpr h.2)
          (List.mem_map_of_mem hmember)
        obtain ⟨m, hm, rfl⟩ := List.mem_map.mp hname
        obtain ⟨found, hfound, hsame⟩ := h.2 m hm
        rw [findMember_of_mem distinct' hmember, Option.some.injEq] at hfound
        subst hfound
        exact ⟨m.2, findMember_of_mem distinct hm, ih m hm (hns _ hmember) hsame⟩
    | _ => cases h

theorem same_trans (ha : Formed i a) (hab : a.same b) (hbc : b.same c) : a.same c := by
  induction ha generalizing b c with
  | @scalar _ value hscalar =>
    cases value with
    | list items => cases hscalar
    | object members => cases hscalar
    | number n =>
      cases b with
      | number m =>
        cases c with
        | number k => exact Number.same_trans hab hbc
        | _ => cases hbc
      | _ => cases hab
    | _ => cases b <;> cases c <;> simp_all [same]
  | list _ ih =>
    cases b with
    | list bs =>
      cases c with
      | list cs =>
        rw [same, sameItems_iff] at hab hbc ⊢
        refine ⟨hab.1.trans hbc.1, fun n hn hn' => ?_⟩
        have hmid : n < bs.length := hab.1 ▸ hn
        exact ih _ (List.getElem_mem hn) (hab.2 n hn hmid) (hbc.2 n hmid hn')
      | _ => cases hbc
    | _ => cases hab
  | object _ _ ih =>
    cases b with
    | object ns =>
      cases c with
      | object ks =>
        rw [same_object_iff] at hab hbc ⊢
        refine ⟨hab.1.trans hbc.1, fun m hm => ?_⟩
        obtain ⟨mid, hmid, hsame⟩ := hab.2 m hm
        obtain ⟨last, hlast, hsame'⟩ := hbc.2 _ (Decode.mem_of_findMember hmid)
        exact ⟨last, hlast, ih m hm hsame hsame'⟩
      | _ => cases hbc
    | _ => cases hab

end Json

end RecordMapping

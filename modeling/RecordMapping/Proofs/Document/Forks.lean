import Mathlib.Data.List.Basic
import RecordMapping.Document.Path

/-!
# Paths that fork

Two paths fork when they agree for some steps and then take steps with different texts. Steps with
the same text lead to the same member of an object, so a fork is what keeps two places in a document
apart whatever its containers are.
-/

namespace RecordMapping

/-- Two lists agree up to a place at which their elements differ in a given sense. -/
def ForksBy {α : Type} (differ : α → α → Prop) (p q : List α) : Prop :=
  ∃ common a b restA restB, p = common ++ a :: restA ∧ q = common ++ b :: restB ∧ differ a b

namespace ForksBy

variable {α β : Type} {differ : α → α → Prop} {p q : List α}

lemma symm (hs : ∀ a b, differ a b → differ b a) (h : ForksBy differ p q) :
    ForksBy differ q p := by
  obtain ⟨common, a, b, restA, restB, hp, hq, hd⟩ := h
  exact ⟨common, b, a, restB, restA, hq, hp, hs a b hd⟩

lemma append (h : ForksBy differ p q) (restP restQ : List α) :
    ForksBy differ (p ++ restP) (q ++ restQ) := by
  obtain ⟨common, a, b, restA, restB, rfl, rfl, hd⟩ := h
  exact ⟨common, a, b, restA ++ restP, restB ++ restQ, by simp, by simp, hd⟩

lemma cons (a : α) (h : ForksBy differ p q) : ForksBy differ (a :: p) (a :: q) := by
  obtain ⟨common, b, c, restB, restC, rfl, rfl, hd⟩ := h
  exact ⟨a :: common, b, c, restB, restC, rfl, rfl, hd⟩

lemma ne_nil_left (h : ForksBy differ p q) : p ≠ [] := by
  obtain ⟨common, a, b, restA, restB, rfl, rfl, hd⟩ := h
  simp

lemma ne_nil_right (h : ForksBy differ p q) : q ≠ [] := by
  obtain ⟨common, a, b, restA, restB, rfl, rfl, hd⟩ := h
  simp

lemma mono {differ' : α → α → Prop} (hd : ∀ a b, differ a b → differ' a b)
    (h : ForksBy differ p q) : ForksBy differ' p q := by
  obtain ⟨common, a, b, restA, restB, hp, hq, hab⟩ := h
  exact ⟨common, a, b, restA, restB, hp, hq, hd a b hab⟩

theorem cons_cons_iff {a b : α} :
    ForksBy differ (a :: p) (b :: q) ↔ differ a b ∨ a = b ∧ ForksBy differ p q := by
  constructor
  · rintro ⟨common, c, d, restC, restD, hp, hq, hd⟩
    cases common with
    | nil =>
      obtain ⟨rfl, rfl⟩ := List.cons.inj hp
      obtain ⟨rfl, rfl⟩ := List.cons.inj hq
      exact Or.inl hd
    | cons e common =>
      obtain ⟨rfl, rfl⟩ := List.cons.inj hp
      obtain ⟨rfl, rfl⟩ := List.cons.inj hq
      exact Or.inr ⟨rfl, common, c, d, restC, restD, rfl, rfl, hd⟩
  · rintro (hd | ⟨rfl, h⟩)
    · exact ⟨[], a, b, p, q, rfl, rfl, hd⟩
    · exact h.cons a

/-- A list that forks from two parts together forks from the first, or runs through it and forks
from the second. -/
theorem of_append_right {rest : List α} (h : ForksBy differ p (q ++ rest)) :
    ForksBy differ p q ∨ ∃ below, p = q ++ below ∧ ForksBy differ below rest := by
  induction q generalizing p with
  | nil => exact Or.inr ⟨p, rfl, h⟩
  | cons b q ih =>
    cases p with
    | nil => exact absurd rfl h.ne_nil_left
    | cons a p =>
      rcases cons_cons_iff.mp h with hd | ⟨rfl, hrest⟩
      · exact Or.inl (cons_cons_iff.mpr (Or.inl hd))
      · rcases ih hrest with hf | ⟨below, rfl, hbelow⟩
        · exact Or.inl (hf.cons a)
        · exact Or.inr ⟨below, rfl, hbelow⟩

@[simp] lemma not_nil_left : ¬ForksBy differ [] q := fun h => h.ne_nil_left rfl

@[simp] lemma not_nil_right : ¬ForksBy differ p [] := fun h => h.ne_nil_right rfl

instance decidable [DecidableEq α] [DecidableRel differ] :
    (p q : List α) → Decidable (ForksBy differ p q)
  | [], _ => isFalse not_nil_left
  | _ :: _, [] => isFalse not_nil_right
  | a :: p, b :: q =>
    have := decidable p q
    decidable_of_iff (differ a b ∨ a = b ∧ ForksBy differ p q) cons_cons_iff.symm

end ForksBy

namespace Step

/-- Steps that never lead to the same place. -/
def Differs (s t : Step) : Prop := s.text ≠ t.text

lemma Differs.symm {s t : Step} (h : s.Differs t) : t.Differs s := Ne.symm h

lemma text_index_injective {i j : Nat} (h : (index i).text = (index j).text) : i = j := by
  have hd : Nat.toDigits 10 i = Nat.toDigits 10 j := String.ofList_injective h
  rw [← Nat.ofDigitChars_ten_toDigits (n := i), hd, Nat.ofDigitChars_ten_toDigits]

theorem index_differs {i j : Nat} (h : i ≠ j) : (index i).Differs (index j) :=
  fun ht => h (text_index_injective ht)

/-- Two names or two positions: steps that lead to separate places of one container. -/
inductive Rivals : Step → Step → Prop
  | names {a b : String} : a ≠ b → Rivals (.key a) (.key b)
  | positions {i j : Nat} : i ≠ j → Rivals (.index i) (.index j)

namespace Rivals

lemma differs {s t : Step} (h : s.Rivals t) : s.Differs t := by
  cases h with
  | names hne => exact hne
  | positions hne => exact index_differs hne

end Rivals

end Step

/-- Paths that lead to separate places. -/
abbrev Forks : List Step → List Step → Prop := ForksBy Step.Differs

lemma Forks.symm {p q : List Step} (h : Forks p q) : Forks q p :=
  ForksBy.symm (fun _ _ => Step.Differs.symm) h

end RecordMapping

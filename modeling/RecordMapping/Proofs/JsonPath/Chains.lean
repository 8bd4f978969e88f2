import RecordMapping.Proofs.Document.ReadWrite
import RecordMapping.Proofs.JsonPath.Walks

/-!
# Chains

A scalar that is written into an empty document makes a chain: every container has one child, and
only a position zero below the top makes a list. The query engine goes down a chain as the plan
does, but for a position in an object: it skips the object and looks into the lists among its
members, so it gets ahead of the plan and runs out of the chain.
-/

namespace RecordMapping

namespace Json

variable {value written child : Json} {rest path : List Step}

/-- At most one value, into which a value was written along less than so many steps. -/
def Lower (value : Json) (steps : Nat) (found : List Json) : Prop :=
  found = [] ∨ ∃ path below, path.length < steps ∧ write value path .null = .ok below ∧
    found = [below]

lemma Lower.mono {found : List Json} {steps more : Nat} (h : Lower value steps found)
    (hle : steps ≤ more) : Lower value more found := by
  obtain rfl | ⟨path, below, hshort, hbelow, rfl⟩ := h
  · exact .inl rfl
  · exact .inr ⟨path, below, by omega, hbelow, rfl⟩

lemma lower_singleton (h : write value rest .null = .ok child) :
    Lower value (rest.length + 1) [child] := .inr ⟨rest, child, by omega, h, rfl⟩

lemma itemAt_singleton (child : Json) (position : Int) :
    (Json.list [child]).itemAt position = [] ∨ (Json.list [child]).itemAt position = [child] := by
  simp only [itemAt]
  cases JsonPath.positionIn [child].length position with
  | zero => exact .inr rfl
  | succ place => exact .inl rfl

lemma lower_itemAt (hscalar : value.isContainer = false)
    (h : write value path .null = .ok written) (position : Int) :
    Lower value path.length (written.itemAt position) := by
  cases path with
  | nil =>
    obtain rfl := Except.ok.inj h
    cases value with
    | list items => cases hscalar
    | _ => exact .inl rfl
  | cons step rest =>
    obtain ⟨child, hchild, ⟨-, rfl⟩ | ⟨-, rfl⟩⟩ := write_null_cons h
    · obtain hnone | hone := itemAt_singleton child position
      · exact .inl hnone
      · rw [hone]
        exact lower_singleton hchild
    · exact .inl rfl

end Json

namespace Segment

open Json

variable {value written child : Json} {path rest : List Step}

lemma reach_scalar (h : value.isContainer = false) (segment : Segment) :
    segment.reach value = [] := by
  cases value with
  | list items => cases h
  | object members => cases h
  | _ =>
    cases segment with
    | wildcard => rfl
    | step step => cases step <;> rfl

lemma lower_reach_index (hscalar : value.isContainer = false)
    (h : write value rest .null = .ok child) (name : String) (n : Nat) :
    Lower value rest.length ((Segment.step (.index n)).reach (.object [(name, child)])) := by
  rw [reach, itemsOf, List.map_singleton, List.flatMap_singleton]
  exact lower_itemAt hscalar h _

lemma reach_key_object (name other : String) (child : Json) :
    (Segment.step (.key name)).reach (.object [(other, child)]) =
      if other = name then [child] else [] := by
  simp only [reach, member?, findMember]
  split <;> rfl

lemma lower_reach (hscalar : value.isContainer = false)
    (h : write value path .null = .ok written) (segment : Segment) :
    Lower value path.length (segment.reach written) := by
  cases path with
  | nil =>
    obtain rfl := Except.ok.inj h
    exact .inl (reach_scalar hscalar segment)
  | cons step rest =>
    obtain ⟨child, hchild, ⟨-, rfl⟩ | ⟨-, rfl⟩⟩ := write_null_cons h
    · cases segment with
      | wildcard => exact lower_singleton hchild
      | step own =>
        cases own with
        | key name => exact .inl rfl
        | index n => exact lower_itemAt hscalar h _
    · cases segment with
      | wildcard => exact lower_singleton hchild
      | step own =>
        cases own with
        | key name =>
          rw [reach_key_object]
          split
          · exact lower_singleton hchild
          · exact .inl rfl
        | index n => exact (lower_reach_index hscalar hchild step.text n).mono (Nat.le_succ _)

lemma reach_of_write_null {segment : Segment} (hzero : ∀ n, segment = .step (.index n) → n = 0)
    (h : write value (segment.stepAt 0 :: rest) .null = .ok written) :
    ∃ child, write value rest .null = .ok child ∧ segment.reach written = [child] := by
  obtain ⟨child, hchild, hwritten⟩ := write_null_cons h
  refine ⟨child, hchild, ?_⟩
  cases segment with
  | wildcard =>
    obtain ⟨-, rfl⟩ | ⟨hne, -⟩ := hwritten
    · rfl
    · exact absurd rfl hne
  | step step =>
    cases step with
    | key name =>
      obtain ⟨hkey, -⟩ | ⟨-, rfl⟩ := hwritten
      · cases hkey
      · rw [reach_key_object, stepAt, Step.text, if_pos rfl]
    | index n =>
      obtain rfl := hzero n rfl
      obtain ⟨-, rfl⟩ | ⟨hne, -⟩ := hwritten
      · have hposition : clampToSigned (Binary64.ofInt (0 : Nat)).truncate = 0 := by
          decide +kernel
        rw [reach, hposition]
        rfl
      · exact absurd rfl hne

lemma reach_of_write_empty {segment : Segment} (hposition : ∀ n, segment ≠ .step (.index n))
    (h : write value (segment.stepAt 0 :: rest) (.object []) = .ok written) :
    ∃ child, write value rest .null = .ok child ∧ segment.reach written = [child] := by
  obtain ⟨child, hchild, rfl⟩ := write_empty_cons h
  refine ⟨child, hchild, ?_⟩
  cases segment with
  | wildcard => rfl
  | step step =>
    cases step with
    | key name => rw [reach_key_object, stepAt, Step.text, if_pos rfl]
    | index n => exact absurd rfl (hposition n)

end Segment

namespace Plan

open Json

variable {value written : Json} {plan : Plan}

lemma reach_cons (segment : Segment) (plan : Plan) (values : List Json) :
    reach (segment :: plan) values = plan.reach (values.flatMap segment.reach) := rfl

lemma reach_nil (plan : Plan) : plan.reach [] = [] := by
  induction plan with
  | nil => rfl
  | cons segment rest ih => exact ih

/-- A plan that is longer than the way down leads nowhere. -/
lemma reach_of_lower (hscalar : value.isContainer = false) {found : List Json}
    (h : Lower value plan.length found) : plan.reach found = [] := by
  induction plan generalizing found with
  | nil =>
    obtain rfl | ⟨path, below, hshort, -, rfl⟩ := h
    · rfl
    · cases hshort
  | cons segment rest ih =>
    obtain rfl | ⟨path, below, hshort, hbelow, rfl⟩ := h
    · exact reach_nil _
    · rw [reach_cons, List.flatMap_singleton]
      exact ih ((Segment.lower_reach hscalar hbelow segment).mono (Nat.le_of_lt_succ hshort))

def AtZero (plan : Plan) : Prop := ∀ n, .step (.index n) ∈ plan → n = 0

/-- Whether a plan has no position but zero below its first segment. -/
structure Placed (plan : Plan) : Prop where
  first : ∀ n, plan.head? ≠ some (.step (.index n))
  zero : plan.AtZero

lemma atZero_cons {segment : Segment} : AtZero (segment :: plan) ↔
    (∀ n, segment = .step (.index n) → n = 0) ∧ plan.AtZero := by
  constructor
  · intro h
    exact ⟨fun n hn => h n (hn ▸ List.mem_cons_self), fun n hn => h n (List.mem_cons_of_mem _ hn)⟩
  · rintro ⟨hfirst, hrest⟩ n hn
    obtain hn | hn := List.mem_cons.mp hn
    · exact hfirst n hn.symm
    · exact hrest n hn

/-- Below a container that is made for it, a plan of positions zero leads to the written value, and
another one nowhere. -/
lemma reach_write_null (hscalar : value.isContainer = false)
    (h : write value (plan.pathAt 0) .null = .ok written) :
    (plan.AtZero → plan.reach [written] = [value]) ∧
    (¬ plan.AtZero → plan.reach [written] = []) := by
  induction plan generalizing written with
  | nil =>
    obtain rfl := Except.ok.inj h
    exact ⟨fun _ => rfl, fun hnot => absurd (fun n hn => by cases hn) hnot⟩
  | cons segment rest ih =>
    rw [reach_cons, List.flatMap_singleton, atZero_cons]
    by_cases hzero : ∀ n, segment = .step (.index n) → n = 0
    · obtain ⟨child, hchild, hreach⟩ := Segment.reach_of_write_null hzero h
      obtain ⟨hfound, hlost⟩ := ih hchild
      rw [hreach]
      exact ⟨fun hall => hfound hall.2, fun hnot => hlost fun hrest => hnot ⟨hzero, hrest⟩⟩
    · -- A position past zero makes an object, and in an object the engine looks for the lists among
      -- the members: from here on it is one step ahead of the plan.
      refine ⟨fun hall => absurd hall.1 hzero, fun _ => ?_⟩
      push Not at hzero
      obtain ⟨n, rfl, hn⟩ := hzero
      obtain ⟨child, hchild, ⟨hindex, -⟩ | ⟨-, rfl⟩⟩ := write_null_cons h
      · exact absurd (Step.index.inj hindex) hn
      · refine reach_of_lower hscalar ?_
        simpa [pathAt] using Segment.lower_reach_index hscalar hchild _ n

/-- From the top of a document that was empty, a plan that is placed leads to the written value, and
another one nowhere. -/
theorem reach_write_empty (hscalar : value.isContainer = false)
    (h : write value (plan.pathAt 0) (.object []) = .ok written) :
    (plan.Placed → plan.reach [written] = [value]) ∧
    (¬ plan.Placed → plan.reach [written] = []) := by
  cases plan with
  | nil =>
    have hkinds : ((Json.object []).isContainer == value.isContainer) = false := by
      rw [hscalar]
      rfl
    simp [pathAt, write, replace, isNull, hkinds] at h
  | cons segment rest =>
    rw [reach_cons, List.flatMap_singleton]
    by_cases hposition : ∀ n, segment ≠ .step (.index n)
    · obtain ⟨child, hchild, hreach⟩ := Segment.reach_of_write_empty hposition h
      obtain ⟨hfound, hlost⟩ := reach_write_null hscalar hchild
      rw [hreach]
      refine ⟨fun hplaced => hfound (atZero_cons.mp hplaced.zero).2,
        fun hnot => hlost fun hrest => ?_⟩
      refine hnot ⟨fun n hn => hposition n (Option.some.inj hn), atZero_cons.mpr ⟨?_, hrest⟩⟩
      exact fun n hn => absurd hn (hposition n)
    · push Not at hposition
      obtain ⟨n, rfl⟩ := hposition
      refine ⟨fun hplaced => absurd rfl (hplaced.first n), fun _ => ?_⟩
      obtain ⟨child, hchild, rfl⟩ := write_empty_cons h
      refine reach_of_lower hscalar ?_
      simpa [pathAt] using Segment.lower_reach_index hscalar hchild _ n

lemma reach_other_name_null {before after : Plan} {name other : String} (hne : name ≠ other)
    (hzero : AtZero before)
    (h : write value (pathAt (before ++ .step (.key name) :: after) 0) .null = .ok written) :
    reach (before ++ [.step (.key other)]) [written] = [] := by
  induction before generalizing written with
  | nil =>
    obtain ⟨child, hchild, ⟨hkey, -⟩ | ⟨-, rfl⟩⟩ := write_null_cons h
    · cases hkey
    · rw [List.nil_append, reach_cons, List.flatMap_singleton, Segment.reach_key_object]
      exact if_neg hne
  | cons segment rest ih =>
    obtain ⟨hfirst, hrest⟩ := atZero_cons.mp hzero
    obtain ⟨child, hchild, hreach⟩ := Segment.reach_of_write_null hfirst h
    rw [List.cons_append, reach_cons, List.flatMap_singleton, hreach]
    exact ih hrest hchild

theorem reach_other_name {before after : Plan} {name other : String} (hne : name ≠ other)
    (hplaced : Placed (before ++ .step (.key name) :: after))
    (h : write value (pathAt (before ++ .step (.key name) :: after) 0) (.object []) =
      .ok written) :
    reach (before ++ [.step (.key other)]) [written] = [] := by
  cases before with
  | nil =>
    obtain ⟨child, hchild, rfl⟩ := write_empty_cons h
    rw [List.nil_append, reach_cons, List.flatMap_singleton, Segment.reach_key_object]
    exact if_neg hne
  | cons segment rest =>
    have hzero : AtZero rest := fun n hn => hplaced.zero n (by simp [hn])
    have hposition (n : Nat) : segment ≠ .step (.index n) := fun hn =>
      hplaced.first n (congrArg some hn)
    obtain ⟨child, hchild, hreach⟩ := Segment.reach_of_write_empty hposition h
    rw [List.cons_append, reach_cons, List.flatMap_singleton, hreach]
    exact reach_other_name_null hne hzero hchild

end Plan

end RecordMapping

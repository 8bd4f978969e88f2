import RecordMapping.Plan.Basic
import RecordMapping.Proofs.Document.Writes

/-!
# The places of a plan

Injection is a sequence of writes to the places of a plan, one place for each value when the plan
has a wildcard and one place in all when it has none. The places of a plan with a wildcard fork from
each other, and plans that diverge at literal segments have forking places for all positions.
-/

namespace RecordMapping

namespace Segment

def Differs (a b : Segment) : Prop := ∃ s t, a = .step s ∧ b = .step t ∧ s.Differs t

lemma Differs.symm {a b : Segment} (h : a.Differs b) : b.Differs a := by
  obtain ⟨s, t, ha, hb, hd⟩ := h
  exact ⟨t, s, hb, ha, hd.symm⟩

end Segment

namespace Plan

/-- Plans that agree segment for segment up to a place where both have literal segments, which have
different texts. -/
abbrev Diverge : Plan → Plan → Prop := ForksBy Segment.Differs

lemma Diverge.symm {p q : Plan} (h : Diverge p q) : Diverge q p :=
  ForksBy.symm (fun _ _ => Segment.Differs.symm) h

@[simp] lemma hasWildcard_nil : hasWildcard [] = false := rfl

@[simp] lemma hasWildcard_step (step : Step) (rest : Plan) :
    hasWildcard (.step step :: rest) = hasWildcard rest := by
  simp [hasWildcard]

@[simp] lemma hasWildcard_wildcard (rest : Plan) : hasWildcard (.wildcard :: rest) = true := by
  simp [hasWildcard]

@[simp] lemma pathAt_step (step : Step) (rest : Plan) (position : Nat) :
    pathAt (.step step :: rest) position = step :: pathAt rest position := rfl

@[simp] lemma pathAt_wildcard (rest : Plan) (position : Nat) :
    pathAt (.wildcard :: rest) position = .index position :: pathAt rest position := rfl

@[simp] lemma pathAt_append (p q : Plan) (position : Nat) :
    pathAt (p ++ q) position = pathAt p position ++ pathAt q position := List.map_append

@[simp] lemma pathAt_steps (steps : List Step) (position : Nat) :
    pathAt (steps.map .step) position = steps := by
  induction steps with
  | nil => rfl
  | cons step rest ih => rw [List.map_cons, pathAt_step, ih]

lemma eq_map_step {plan : Plan} (h : plan.hasWildcard = false) (position : Nat) :
    plan = (plan.pathAt position).map .step := by
  induction plan with
  | nil => rfl
  | cons segment rest ih =>
    cases segment with
    | step step => simpa using ih (by simpa using h)
    | wildcard => simp at h

lemma exists_eq_append_wildcard {plan : Plan} (h : plan.hasWildcard) :
    ∃ (before : List Step) (rest : Plan), plan = before.map .step ++ .wildcard :: rest := by
  induction plan with
  | nil => simp at h
  | cons segment rest ih =>
    cases segment with
    | step step =>
      obtain ⟨before, after, rfl⟩ := ih (by simpa using h)
      exact ⟨step :: before, after, rfl⟩
    | wildcard => exact ⟨[], rest, rfl⟩

section Places

variable {differ : Step → Step → Prop} (hpositions : ∀ i j, i ≠ j → differ (.index i) (.index j))
include hpositions

theorem forksBy_pathAt_of_ne {plan : Plan} (h : plan.hasWildcard) {i j : Nat} (hne : i ≠ j) :
    ForksBy differ (plan.pathAt i) (plan.pathAt j) := by
  obtain ⟨before, rest, rfl⟩ := exists_eq_append_wildcard h
  simp only [pathAt_append, pathAt_steps, pathAt_wildcard]
  exact ⟨before, .index i, .index j, rest.pathAt i, rest.pathAt j, rfl, rfl, hpositions i j hne⟩

theorem forksBy_pathAt {differ' : Segment → Segment → Prop}
    (hsteps : ∀ a b, differ' a b → ∃ s t, a = .step s ∧ b = .step t ∧ differ s t) {p q : Plan}
    (h : ForksBy differ' p q) (i j : Nat) : ForksBy differ (p.pathAt i) (q.pathAt j) := by
  obtain ⟨common, a, b, restA, restB, rfl, rfl, hab⟩ := h
  obtain ⟨s, t, rfl, rfl, hd⟩ := hsteps a b hab
  rw [pathAt_append, pathAt_append, pathAt_step, pathAt_step]
  by_cases hsame : pathAt common i = pathAt common j
  · rw [hsame]
    exact ⟨pathAt common j, s, t, pathAt restA i, pathAt restB j, rfl, rfl, hd⟩
  · have hne : i ≠ j := fun he => hsame (by rw [he])
    have hw : hasWildcard common := by
      by_contra hnone
      have hsteps := eq_map_step (by simpa using hnone) 0
      rw [hsteps, pathAt_steps, pathAt_steps] at hsame
      exact hsame rfl
    exact (forksBy_pathAt_of_ne hpositions hw hne).append _ _

end Places

lemma forks_pathAt_of_ne {plan : Plan} (h : plan.hasWildcard) {i j : Nat} (hne : i ≠ j) :
    Forks (plan.pathAt i) (plan.pathAt j) :=
  forksBy_pathAt_of_ne (fun _ _ => Step.index_differs) h hne

theorem Diverge.forks_pathAt {p q : Plan} (h : Diverge p q) (i j : Nat) :
    Forks (p.pathAt i) (q.pathAt j) :=
  forksBy_pathAt (fun _ _ => Step.index_differs) (fun _ _ hd => hd) h i j

/-- Plans whose places fork, whatever positions are put in. -/
def Apart (p q : Plan) : Prop := ∀ i j, Forks (p.pathAt i) (q.pathAt j)

lemma Diverge.apart {p q : Plan} (h : Diverge p q) : Apart p q := h.forks_pathAt

def placements (plan : Plan) (values : List Json) (cardinality : Cardinality) : List Placement :=
  if plan.hasWildcard then values.mapIdx fun position value => (plan.pathAt position, value)
  else (gather cardinality values).toList.map fun value => (plan.pathAt 0, value)

lemma writeFrom_eq_writeAll (plan : Plan) (position : Nat) (values : List Json) (document : Json) :
    plan.writeFrom position values document =
      Json.writeAll (values.mapIdx fun i value => (plan.pathAt (position + i), value))
        document := by
  induction values generalizing position document with
  | nil => rfl
  | cons value rest ih =>
    rw [List.mapIdx_cons]
    simp only [writeFrom, Json.writeAll, Nat.add_zero]
    cases Json.write value (plan.pathAt position) document with
    | ok between =>
      simp only [ih (position + 1), Nat.add_assoc, Nat.add_comm 1]
    | error conflict => rfl

theorem inject_eq_writeAll (plan : Plan) (values : List Json) (cardinality : Cardinality)
    (document : Json) :
    plan.inject values cardinality document =
      Json.writeAll (plan.placements values cardinality) document := by
  simp only [inject, placements]
  split
  · simpa using writeFrom_eq_writeAll plan 0 values document
  · cases gather cardinality values with
    | none => rfl
    | some value =>
      simp only [Option.toList_some, List.map_cons, List.map_nil, Json.writeAll]
      cases Json.write value (plan.pathAt 0) document <;> rfl

lemma placements_nil (plan : Plan) (cardinality : Cardinality) :
    plan.placements [] cardinality = [] := by
  simp [placements, gather]

lemma mem_placements_of_wildcard {plan : Plan} (h : plan.hasWildcard) {values : List Json}
    {cardinality : Cardinality} {placement : Placement} :
    placement ∈ plan.placements values cardinality ↔
      ∃ i value, values[i]? = some value ∧ placement = (plan.pathAt i, value) := by
  simp only [placements, h, if_true, List.mem_mapIdx]
  constructor
  · rintro ⟨i, hi, rfl⟩
    exact ⟨i, values[i], List.getElem?_eq_getElem hi, rfl⟩
  · rintro ⟨i, value, hvalue, rfl⟩
    obtain ⟨hi, rfl⟩ := List.getElem?_eq_some_iff.mp hvalue
    exact ⟨i, hi, rfl⟩

lemma mem_placements_of_no_wildcard {plan : Plan} (h : plan.hasWildcard = false)
    {values : List Json} {cardinality : Cardinality} {placement : Placement} :
    placement ∈ plan.placements values cardinality ↔
      ∃ value, gather cardinality values = some value ∧ placement = (plan.pathAt 0, value) := by
  simp only [placements, h, Bool.false_eq_true, if_false, List.mem_map, Option.mem_toList]
  constructor
  · rintro ⟨value, hvalue, rfl⟩
    exact ⟨value, hvalue, rfl⟩
  · rintro ⟨value, hvalue, rfl⟩
    exact ⟨value, hvalue, rfl⟩

lemma exists_pathAt_of_mem_placements {plan : Plan} {values : List Json}
    {cardinality : Cardinality} {placement : Placement}
    (h : placement ∈ plan.placements values cardinality) :
    ∃ i, placement.1 = plan.pathAt i := by
  cases hw : plan.hasWildcard with
  | true =>
    obtain ⟨i, value, -, rfl⟩ := (mem_placements_of_wildcard hw).mp h
    exact ⟨i, rfl⟩
  | false =>
    obtain ⟨value, -, rfl⟩ := (mem_placements_of_no_wildcard hw).mp h
    exact ⟨0, rfl⟩

/-- Among writes that either put the values of a plan with a wildcard at its places or avoid all of
its places, the place of each position holds the value of that position. -/
theorem find?_pathAt_writeAll {plan : Plan} (hw : plan.hasWildcard) {values : List Json}
    {writes : List Placement} {document result : Json}
    (h : Json.writeAll writes document = .ok result)
    (hput : ∀ i value, values[i]? = some value → (plan.pathAt i, value) ∈ writes)
    (honly : ∀ placement ∈ writes,
      (∃ i value, values[i]? = some value ∧ placement = (plan.pathAt i, value)) ∨
        ∀ i, Forks placement.1 (plan.pathAt i)) (i : Nat) :
    result.find? (plan.pathAt i) = (values[i]?).or (document.find? (plan.pathAt i)) := by
  cases hvalue : values[i]? with
  | some value =>
    refine Json.find?_writeAll h (hput i value hvalue) fun placement hp => ?_
    rcases honly placement hp with ⟨j, other, hother, rfl⟩ | hforks
    · by_cases hji : j = i
      · subst hji
        right
        rw [Option.some.inj (hother.symm.trans hvalue)]
      · exact Or.inl (forks_pathAt_of_ne hw hji)
    · exact Or.inl (hforks i)
  | none =>
    refine Json.find?_writeAll_of_forks h fun placement hp => ?_
    rcases honly placement hp with ⟨j, other, hother, rfl⟩ | hforks
    · have hji : j ≠ i := by
        rintro rfl
        rw [hvalue] at hother
        cases hother
      exact forks_pathAt_of_ne hw hji
    · exact hforks i

/-- Values written through a plan leave a list at the first wildcard, if there are values. -/
lemma isListAt_of_placements {before : List Step} {rest : Plan} {values : List Json}
    {cardinality : Cardinality} {document result : Json} (hne : values ≠ [])
    (hl : document.IsListOrMissingAt before)
    (h : Json.writeAll (placements (before.map .step ++ .wildcard :: rest) values cardinality)
      document = .ok result) : result.IsListAt before := by
  obtain ⟨first, others, rfl⟩ := List.exists_cons_of_ne_nil hne
  have hw : hasWildcard (before.map .step ++ .wildcard :: rest) := by simp [hasWildcard]
  simp only [placements, hw, if_true, List.mapIdx_cons, pathAt_append, pathAt_steps,
    pathAt_wildcard] at h
  obtain ⟨between, hfirst, hothers⟩ := Json.writeAll_cons_ok.mp h
  refine (hl.write_zero hfirst).writeAll (fun placement hp => ?_) hothers
  obtain ⟨i, hi, rfl⟩ := List.mem_mapIdx.mp hp
  exact ⟨i + 1, pathAt rest (i + 1), rfl⟩

lemma isListOrMissingAt_of_placements {before : List Step} {rest : Plan} {values : List Json}
    {cardinality : Cardinality} {document result : Json} (hl : document.IsListOrMissingAt before)
    (h : Json.writeAll (placements (before.map .step ++ .wildcard :: rest) values cardinality)
      document = .ok result) : result.IsListOrMissingAt before := by
  by_cases hne : values = []
  · subst hne
    rw [placements_nil] at h
    exact Except.ok.inj h ▸ hl
  · exact (isListAt_of_placements hne hl h).isListOrMissing

end Plan

end RecordMapping

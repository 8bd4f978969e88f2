import Mathlib.Data.List.Induction
import RecordMapping.Proofs.Document.Turns
import RecordMapping.Proofs.Plan.Places

/-!
# Plans that part by name

The places of plans that part at two names come in turn. A position in such a place stands for a
literal one, which all places there share, or for a wildcard. The first wildcard of a plan counts
its values from zero on, and at a later one the places that got so far have the same position
already.
-/

namespace RecordMapping

namespace Segment

def NamesDiffer (a b : Segment) : Prop :=
  ∃ m n, a = .step (.key m) ∧ b = .step (.key n) ∧ m ≠ n

instance : DecidableRel NamesDiffer
  | .step (.key m), .step (.key n) =>
    decidable_of_iff (m ≠ n) ⟨fun hne => ⟨m, n, rfl, rfl, hne⟩, fun ⟨_, _, hm, hn, hne⟩ => by
      cases hm
      cases hn
      exact hne⟩
  | .step (.key _), .step (.index _) => isFalse fun ⟨_, _, _, hn, _⟩ => by cases hn
  | .step (.key _), .wildcard => isFalse fun ⟨_, _, _, hn, _⟩ => by cases hn
  | .step (.index _), _ => isFalse fun ⟨_, _, hm, _⟩ => by cases hm
  | .wildcard, _ => isFalse fun ⟨_, _, hm, _⟩ => by cases hm

lemma NamesDiffer.rivals {a b : Segment} (h : a.NamesDiffer b) :
    ∃ s t, a = .step s ∧ b = .step t ∧ s.Rivals t := by
  obtain ⟨m, n, ha, hb, hne⟩ := h
  exact ⟨.key m, .key n, ha, hb, .names hne⟩

end Segment

namespace Plan

/-- Plans that agree segment for segment up to a place where both have names, which differ. -/
abbrev PartByName : Plan → Plan → Prop := ForksBy Segment.NamesDiffer

lemma PartByName.forksBy_pathAt {p q : Plan} (h : PartByName p q) (i j : Nat) :
    ForksBy Step.Rivals (p.pathAt i) (q.pathAt j) :=
  Plan.forksBy_pathAt (fun _ _ => Step.Rivals.positions) (fun _ _ => Segment.NamesDiffer.rivals)
    h i j

/-- Where places of parting plans get equally far and one of them takes a position, the plans are
the same up to there. -/
lemma PartByName.agree {before before' rest rest' : Plan} {segment segment' : Segment}
    {i j position : Nat} (h : PartByName (before' ++ segment' :: rest') (before ++ segment :: rest))
    (hsame : pathAt before' j = pathAt before i) (hposition : segment.stepAt i = .index position) :
    before' = before ∧ segment' = segment := by
  induction before generalizing before' with
  | nil =>
    obtain rfl := List.map_eq_nil_iff.mp hsame
    rcases ForksBy.cons_cons_iff.mp h with ⟨m, n, -, rfl, -⟩ | ⟨rfl, -⟩
    · cases hposition
    · exact ⟨rfl, rfl⟩
  | cons head before ih =>
    cases before' with
    | nil => cases hsame
    | cons head' before' =>
      obtain ⟨hhead, htail⟩ := List.cons.inj hsame
      rcases ForksBy.cons_cons_iff.mp h with ⟨m, n, rfl, rfl, hne⟩ | ⟨rfl, hrest⟩
      · exact absurd (Step.key.inj hhead) hne
      · obtain ⟨rfl, hsegment⟩ := ih hrest htail
        exact ⟨rfl, hsegment⟩

lemma pathAt_eq_append_cons {plan : Plan} {i : Nat} {before rest : List Step} {step : Step}
    (h : plan.pathAt i = before ++ step :: rest) :
    ∃ common segment tail, plan = common ++ segment :: tail ∧ pathAt common i = before ∧
      segment.stepAt i = step := by
  obtain ⟨common, others, rfl, hbefore, hothers⟩ := List.map_eq_append_iff.mp h
  obtain ⟨segment, tail, rfl, hstep, -⟩ := List.map_eq_cons_iff.mp hothers
  exact ⟨common, segment, tail, rfl, hbefore, hstep⟩

lemma eq_of_pathAt_eq {plan : Plan} (hw : plan.hasWildcard) {i j : Nat}
    (h : plan.pathAt i = plan.pathAt j) : i = j := by
  by_contra hne
  have hforks := forks_pathAt_of_ne hw hne
  rw [h] at hforks
  obtain ⟨common, a, b, restA, restB, hp, hq, hd⟩ := hforks
  have hab := List.append_cancel_left (hp.symm.trans hq)
  exact hd (by rw [(List.cons.inj hab).1])

theorem inTurn_pathAt {plan : Plan} {earlier : List Placement} {i : Nat}
    (hearlier : ∀ placement ∈ earlier, ∃ q j, placement.1 = pathAt q j ∧
      (q = plan ∨ PartByName q plan))
    (hbefore : ∀ j < i, ∃ placement ∈ earlier, placement.1 = plan.pathAt j) :
    InTurn earlier (plan.pathAt i) := by
  intro before position rest hpath
  obtain ⟨common, segment, tail, rfl, hcommon, hsegment⟩ := pathAt_eq_append_cons hpath
  have hagree : ∀ placement ∈ earlier, ∀ other below,
      placement.1 = before ++ .index other :: below →
      ∃ j, pathAt common j = before ∧ segment.stepAt j = .index other := by
    intro placement hmem other below hother
    obtain ⟨q, j, hplace, hq⟩ := hearlier placement hmem
    rw [hplace] at hother
    obtain ⟨common', segment', tail', rfl, hcommon', hsegment'⟩ := pathAt_eq_append_cons hother
    have hsame : common' = common ∧ segment' = segment := by
      rcases hq with heq | hpart
      · have hlength : common'.length = common.length := by
          have hlen := congrArg List.length (hcommon'.trans hcommon.symm)
          simpa [pathAt] using hlen
        obtain ⟨hfirst, hlater⟩ := List.append_inj heq hlength
        exact ⟨hfirst, (List.cons.inj hlater).1⟩
      · exact hpart.agree (hcommon'.trans hcommon.symm) hsegment
    obtain ⟨rfl, rfl⟩ := hsame
    exact ⟨j, hcommon', hsegment'⟩
  cases segment with
  | step literal =>
    right; right
    intro placement hmem other below hother
    obtain ⟨j, -, hj⟩ := hagree placement hmem other below hother
    exact Step.index.inj (hj.symm.trans hsegment)
  | wildcard =>
    obtain rfl := Step.index.inj hsegment
    cases hw : common.hasWildcard with
    | true =>
      right; right
      intro placement hmem other below hother
      obtain ⟨j, hj, hposition⟩ := hagree placement hmem other below hother
      obtain rfl := eq_of_pathAt_eq hw (hj.trans hcommon.symm)
      exact (Step.index.inj hposition).symm
    | false =>
      cases i with
      | zero => exact Or.inl rfl
      | succ previous =>
        right; left
        obtain ⟨placement, hmem, hplace⟩ := hbefore previous (Nat.lt_succ_self previous)
        refine ⟨placement, hmem, pathAt tail previous, ?_⟩
        have hsteps := eq_map_step hw 0
        have hfixed : pathAt common previous = before := by
          rw [← hcommon, hsteps, pathAt_steps, pathAt_steps]
        rw [hplace, pathAt_append, pathAt_wildcard, hfixed, Nat.add_sub_cancel]

/-- Values written through a plan meet no conflict after the places of parting plans. -/
theorem unblocked_placements {plan : Plan} (hne : plan ≠ []) {earlier : List Placement}
    (h : Unblocked earlier)
    (hearlier : ∀ placement ∈ earlier, ∃ q j, placement.1 = pathAt q j ∧ PartByName q plan)
    (values : List Json) (cardinality : Cardinality) :
    Unblocked (earlier ++ plan.placements values cardinality) := by
  have hpath : ∀ i, plan.pathAt i ≠ [] := fun i => by simpa [pathAt] using hne
  have hrivals : ∀ i, ∀ placement ∈ earlier,
      ForksBy Step.Rivals placement.1 (plan.pathAt i) := by
    intro i placement hmem
    obtain ⟨q, j, hplace, hpart⟩ := hearlier placement hmem
    exact hplace ▸ hpart.forksBy_pathAt j i
  cases hw : plan.hasWildcard with
  | false =>
    cases hg : gather cardinality values with
    | none => simpa [placements, hw, hg] using h
    | some value =>
      have hturn : InTurn earlier (plan.pathAt 0) := by
        refine inTurn_pathAt (fun placement hmem => ?_) fun j hj => absurd hj (Nat.not_lt_zero j)
        obtain ⟨q, j, hplace, hpart⟩ := hearlier placement hmem
        exact ⟨q, j, hplace, Or.inr hpart⟩
      simpa [placements, hw, hg] using
        h.append_singleton (hpath 0) (hrivals 0) hturn value
  | true =>
    simp only [placements, hw, if_true]
    induction values using List.reverseRecOn with
    | nil => simpa using h
    | append_singleton values value ih =>
      rw [List.mapIdx_concat, ← List.append_assoc]
      refine ih.append_singleton (hpath values.length) (fun placement hmem => ?_)
        (inTurn_pathAt (fun placement hmem => ?_) fun j hj => ?_) value
      · rcases List.mem_append.mp hmem with hmem | hmem
        · exact hrivals values.length placement hmem
        · obtain ⟨j, hj, rfl⟩ := List.mem_mapIdx.mp hmem
          exact forksBy_pathAt_of_ne (fun _ _ => Step.Rivals.positions) hw (Nat.ne_of_lt hj)
      · rcases List.mem_append.mp hmem with hmem | hmem
        · obtain ⟨q, j, hplace, hpart⟩ := hearlier placement hmem
          exact ⟨q, j, hplace, Or.inr hpart⟩
        · obtain ⟨j, hj, rfl⟩ := List.mem_mapIdx.mp hmem
          exact ⟨plan, j, rfl, Or.inl rfl⟩
      · refine ⟨(plan.pathAt j, values[j]), ?_, rfl⟩
        exact List.mem_append_right _ (List.mem_mapIdx.mpr ⟨j, hj, rfl⟩)

end Plan

end RecordMapping

import RecordMapping.Proofs.Document.Leaves
import RecordMapping.Proofs.Plan.ReadBack
import RecordMapping.Proofs.Plan.Segments
import RecordMapping.Proofs.Plan.Turns

/-!
# Wildcards at the top and below each other

A position replaces every wildcard of a plan on the way in, while on the way out a wildcard goes
into a list, takes the first value of every list below it and stands still before an object. Main
statement: from an empty object on, values behind such wildcards are found again only if there is
one of them, and behind a wildcard at the top only if nothing but positions zero comes with it.
-/

namespace RecordMapping

namespace Step

/-- Whether a step leads to the child of the container that was made for another step: a list for
position zero, and an object for all others. -/
def Enters (step made : Step) : Prop :=
  if made = .index 0 then step = .index 0 else step.text = made.text

end Step

namespace Json

variable {value written : Json} {made : Step} {rest path : List Step}

lemma child?_of_write_null (h : write value (made :: rest) .null = .ok written) :
    ∃ child, write value rest .null = .ok child ∧
      (∀ step : Step, step.Enters made → written.child? step = some child) ∧
      ∀ step : Step, ¬ step.Enters made → written.child? step = none := by
  obtain ⟨child, hchild, ⟨hzero, rfl⟩ | ⟨hzero, rfl⟩⟩ := write_null_cons h
  · refine ⟨child, hchild, fun step henters => ?_, fun step henters => ?_⟩
    · obtain rfl : step = .index 0 := by simpa [Step.Enters, hzero] using henters
      rfl
    · cases step with
      | key name => rfl
      | index position =>
        cases position with
        | zero => exact absurd (by simp [Step.Enters, hzero]) henters
        | succ position => rfl
  · simp only [Step.Enters, if_neg hzero, child?, findMember]
    exact ⟨child, hchild, fun step htext => if_pos htext.symm,
      fun step htext => if_neg fun hsame => htext hsame.symm⟩

lemma sizeOf_le_of_write_null (h : write value path .null = .ok written) :
    sizeOf value ≤ sizeOf written := by
  induction path generalizing written with
  | nil =>
    obtain rfl := Except.ok.inj h
    exact Nat.le_refl _
  | cons step rest ih =>
    obtain ⟨child, hchild, ⟨-, rfl⟩ | ⟨-, rfl⟩⟩ := write_null_cons h
    · have hle := ih hchild
      simp
      omega
    · have hle := ih hchild
      simp
      omega

lemma ne_of_write_null (h : write value (made :: rest) .null = .ok written) : written ≠ value := by
  rintro rfl
  obtain ⟨child, hchild, ⟨-, hlist⟩ | ⟨-, hobject⟩⟩ := write_null_cons h
  · have hle := sizeOf_le_of_write_null hchild
    rw [hlist] at hle
    simp at hle
    omega
  · have hle := sizeOf_le_of_write_null hchild
    rw [hobject] at hle
    simp at hle
    omega

end Json

namespace Plan

open Json

/-- A plan that leads along the steps of a chain of containers to the end of it. A wildcard goes
into a list and stands still before an object, and a list at the end gives its only item. -/
inductive Follows : Plan → List Step → Prop
  | atEnd : Follows [] []
  | lastItem : Follows [] [.index 0]
  | step {step made : Step} {plan : Plan} {rest : List Step} (enters : step.Enters made)
      (follows : Follows plan rest) : Follows (.step step :: plan) (made :: rest)
  | item {plan : Plan} {rest : List Step} (follows : Follows plan rest) :
      Follows (.wildcard :: plan) (.index 0 :: rest)
  | whole {plan : Plan} {made : Step} {rest : List Step} (object : made ≠ .index 0)
      (follows : Follows plan (made :: rest)) : Follows (.wildcard :: plan) (made :: rest)

section Chain

variable {value written : Json} {plan : Plan} {path : List Step}

/-- In a chain a plan finds the value at the end if it follows the chain to it, and otherwise its
first value is another one. -/
theorem resolve_chain (hlist : value.kind ≠ .list) (hnull : value ≠ .null)
    (h : write value path .null = .ok written) (hlong : plan.length ≤ path.length) :
    (plan.Follows path → plan.resolve (some written) = [value]) ∧
    (¬ plan.Follows path → (plan.resolve (some written)).head?.getD .null ≠ value) := by
  induction plan generalizing path written with
  | nil =>
    cases path with
    | nil =>
      obtain rfl := Except.ok.inj h
      exact ⟨fun _ => resolve_nil_of_not_list hlist, fun hnot => absurd .atEnd hnot⟩
    | cons made rest =>
      have hne := ne_of_write_null h
      obtain ⟨child, hchild, ⟨rfl, rfl⟩ | ⟨hobject, rfl⟩⟩ := write_null_cons h
      · cases rest with
        | nil =>
          obtain rfl := Except.ok.inj hchild
          exact ⟨fun _ => rfl, fun hnot => absurd .lastItem hnot⟩
        | cons next rest =>
          refine ⟨?_, fun _ => ne_of_write_null hchild⟩
          intro hfollows
          cases hfollows
      · refine ⟨fun hfollows => ?_, fun _ => hne⟩
        cases hfollows with
        | lastItem => exact absurd rfl hobject
  | cons segment plan ih =>
    obtain ⟨made, rest, rfl⟩ := List.exists_cons_of_length_pos (Nat.lt_of_lt_of_le (by simp) hlong)
    have hshort : plan.length ≤ rest.length := by simpa using hlong
    cases segment with
    | step step =>
      obtain ⟨child, hchild, hfound, hmissing⟩ := child?_of_write_null h
      obtain ⟨hread, hunread⟩ := ih hchild hshort
      simp only [resolve, Option.bind_some]
      by_cases henters : step.Enters made
      · rw [hfound step henters]
        refine ⟨fun hfollows => ?_, fun hnot => hunread fun hrest => hnot (.step henters hrest)⟩
        cases hfollows with
        | step _ hrest => exact hread hrest
      · rw [hmissing step henters, resolve_none]
        refine ⟨fun hfollows => ?_, fun _ => Ne.symm hnull⟩
        cases hfollows with
        | step hstep _ => exact absurd hstep henters
    | wildcard =>
      obtain ⟨child, hchild, ⟨rfl, rfl⟩ | ⟨hobject, rfl⟩⟩ := write_null_cons h
      · obtain ⟨hread, hunread⟩ := ih hchild hshort
        refine ⟨fun hfollows => ?_, fun hnot => hunread fun hrest => hnot (.item hrest)⟩
        cases hfollows with
        | item hrest => simp [resolve, hread hrest]
        | whole hobject _ => exact absurd rfl hobject
      · obtain ⟨hread, hunread⟩ := ih h (by simp; omega)
        refine ⟨fun hfollows => ?_, fun hnot => hunread fun hrest => hnot (.whole hobject hrest)⟩
        cases hfollows with
        | item _ => exact absurd rfl hobject
        | whole _ hrest => simp [resolve, hread hrest]

end Chain

section Positions

variable {plan : Plan} {path : List Step} {i : Nat}

lemma enters_self (step : Step) : step.Enters step := by
  unfold Step.Enters
  split
  · assumption
  · rfl

lemma follows_pathAt_zero (plan : Plan) : plan.Follows (plan.pathAt 0) := by
  induction plan with
  | nil => exact .atEnd
  | cons segment rest ih =>
    cases segment with
    | step step => exact .step (enters_self step) ih
    | wildcard => exact .item ih

lemma length_le_of_follows (h : plan.Follows path) : path.length ≤ plan.length + 1 := by
  induction h with
  | atEnd => simp
  | lastItem => simp
  | step _ _ ih => simpa using ih
  | item _ ih => simpa using ih
  | whole _ _ ih =>
    simp only [List.length_cons] at ih ⊢
    omega

lemma text_ne_zero (hi : i ≠ 0) {step : Step} (htext : step.text = (Step.index i).text) :
    step ≠ .index 0 := by
  rintro rfl
  exact hi (Step.text_index_injective htext).symm

/-- A plan that is behind by objects whose members are all named by one position never gets out of
such objects. -/
lemma not_follows_of_texts (hi : i ≠ 0) {steps : List Step} (hne : steps ≠ [])
    (htexts : ∀ step ∈ steps, step.text = (Step.index i).text) :
    ¬ plan.Follows (steps ++ plan.pathAt i) := by
  induction plan generalizing steps with
  | nil =>
    intro hfollows
    rw [pathAt, List.map_nil, List.append_nil] at hfollows
    cases hfollows with
    | atEnd => exact hne rfl
    | lastItem => exact text_ne_zero hi (htexts _ (by simp)) rfl
  | cons segment rest ih =>
    intro hfollows
    obtain ⟨first, others, rfl⟩ := List.exists_cons_of_ne_nil hne
    obtain ⟨hfirst, hothers⟩ := List.forall_mem_cons.mp htexts
    have hobject := text_ne_zero hi hfirst
    cases segment with
    | step step =>
      rw [pathAt_step, List.cons_append] at hfollows
      cases hfollows with
      | step henters hrest =>
        have hstep : step.text = (Step.index i).text := by
          rw [Step.Enters, if_neg hobject] at henters
          exact henters.trans hfirst
        have hpath : others ++ step :: pathAt rest i = others ++ [step] ++ pathAt rest i := by simp
        rw [hpath] at hrest
        apply ih (by simp) _ hrest
        intro other hother
        obtain hother | hother := List.mem_append.mp hother
        · exact hothers other hother
        · rw [List.mem_singleton.mp hother]
          exact hstep
    | wildcard =>
      rw [pathAt_wildcard, List.cons_append] at hfollows
      cases hfollows with
      | item _ => exact hobject rfl
      | whole _ hrest =>
        have hpath : first :: (others ++ .index i :: pathAt rest i) =
            (first :: others) ++ [.index i] ++ pathAt rest i := by simp
        rw [hpath] at hrest
        apply ih (by simp) _ hrest
        intro other hother
        obtain hother | hother := List.mem_append.mp hother
        · exact htexts other hother
        · rw [List.mem_singleton.mp hother]

lemma not_follows_pathAt (hi : i ≠ 0) (hw : plan.hasWildcard) :
    ¬ plan.Follows (plan.pathAt i) := by
  induction plan with
  | nil => simp at hw
  | cons segment rest ih =>
    intro hfollows
    cases segment with
    | step step =>
      rw [pathAt_step] at hfollows
      cases hfollows with
      | step _ hrest => exact ih (by simpa using hw) hrest
    | wildcard =>
      rw [pathAt_wildcard] at hfollows
      have htext : ∀ step ∈ [Step.index i], step.text = (Step.index i).text := by simp
      cases hfollows with
      | item _ => exact hi rfl
      | whole _ hrest => exact not_follows_of_texts hi (by simp) htext hrest

lemma follows_behind_list_iff : plan.Follows (.index 0 :: plan.pathAt 0) ↔
    ∀ segment ∈ plan, segment = .wildcard ∨ segment = .step (.index 0) := by
  induction plan with
  | nil => exact ⟨fun _ segment hsegment => absurd hsegment List.not_mem_nil, fun _ => .lastItem⟩
  | cons segment rest ih =>
    rw [List.forall_mem_cons, ← ih]
    cases segment with
    | step step =>
      rw [pathAt_step]
      constructor
      · intro hfollows
        cases hfollows with
        | step henters hrest =>
          obtain rfl : step = .index 0 := by simpa [Step.Enters] using henters
          exact ⟨.inr rfl, hrest⟩
      · rintro ⟨hzero, hrest⟩
        obtain rfl : step = .index 0 := by simpa using hzero
        exact .step (enters_self _) hrest
    | wildcard =>
      rw [pathAt_wildcard]
      constructor
      · intro hfollows
        cases hfollows with
        | item hrest => exact ⟨.inl rfl, hrest⟩
        | whole hobject _ => exact absurd rfl hobject
      · exact fun hall => .item hall.2

/-- Whether no segment of a plan is a name that is written like position zero. -/
def ZeroIsPosition (plan : Plan) : Prop := ∀ step, .step step ∈ plan →
  step.text = (Step.index 0).text → step = .index 0

/-- A wildcard at the top of an object named by position zero is followed by position zero, and from
there on by lists only. -/
lemma follows_top_iff (hzero : plan.ZeroIsPosition) :
    Follows (.wildcard :: plan) (.key (Step.index 0).text :: plan.pathAt 0) ↔
      ∃ rest, plan = .step (.index 0) :: rest ∧
        ∀ segment ∈ rest, segment = .wildcard ∨ segment = .step (.index 0) := by
  constructor
  · intro hfollows
    cases hfollows with
    | whole _ hwhole =>
      cases plan with
      | nil => cases hwhole
      | cons segment rest =>
        cases segment with
        | wildcard =>
          cases hwhole with
          | whole _ hbehind =>
            have hle := length_le_of_follows hbehind
            simp [pathAt] at hle
        | step step =>
          rw [pathAt_step] at hwhole
          cases hwhole with
          | step henters hrest =>
            have htext : step.text = (Step.index 0).text := by
              rwa [Step.Enters, if_neg (by simp)] at henters
            obtain rfl := hzero step List.mem_cons_self htext
            exact ⟨rest, rfl, follows_behind_list_iff.mp hrest⟩
  · rintro ⟨rest, rfl, hrest⟩
    refine .whole (by simp) (.step ?_ (follows_behind_list_iff.mpr hrest))
    simp [Step.Enters, Step.text]

end Positions

section Inject

variable {plan : Plan} {values : List Json} {cardinality : Cardinality} {value written : Json}

lemma exists_inject_empty (hne : plan ≠ []) (values : List Json) (cardinality : Cardinality) :
    ∃ written, plan.inject values cardinality (.object []) = .ok written := by
  simp only [inject_eq_writeAll]
  exact (unblocked_placements hne Unblocked.nil (by simp) values cardinality).succeeds

lemma resolve_inject_one_iff (hw : plan.hasWildcard) (hlist : value.kind ≠ .list)
    (hnull : value ≠ .null) (hzero : plan.ZeroIsPosition)
    (h : plan.inject [value] cardinality (.object []) = .ok written) :
    plan.resolve (some written) = [value] ↔ (plan.head? = some .wildcard →
      ∃ rest, plan = .wildcard :: .step (.index 0) :: rest ∧
        ∀ segment ∈ rest, segment = .wildcard ∨ segment = .step (.index 0)) := by
  obtain ⟨segment, rest, rfl⟩ : ∃ segment rest, plan = segment :: rest := by
    cases plan with
    | nil => simp at hw
    | cons segment rest => exact ⟨segment, rest, rfl⟩
  have hwrite : write value ((segment.stepAt 0) :: pathAt rest 0) (.object []) = .ok written := by
    simp only [inject, hw, if_true, writeFrom] at h
    split at h
    · rename_i result hresult
      exact hresult.trans h
    · cases h
  have hlong : (segment :: rest).length ≤
      (.key (segment.stepAt 0).text :: pathAt rest 0 : List Step).length := by simp [pathAt]
  obtain ⟨hread, hunread⟩ := resolve_chain hlist hnull (write_null_of_empty hwrite) hlong
  have hiff : resolve (segment :: rest) (some written) = [value] ↔
      Follows (segment :: rest) (.key (segment.stepAt 0).text :: pathAt rest 0) := by
    constructor
    · intro hfound
      by_contra hnot
      exact hunread hnot (by rw [hfound]; rfl)
    · exact hread
  rw [hiff]
  cases segment with
  | step step =>
    have hfollows : Follows (.step step :: rest) (.key step.text :: pathAt rest 0) :=
      .step (by simp [Step.Enters, Step.text]) (follows_pathAt_zero rest)
    simpa [Segment.stepAt] using hfollows
  | wildcard =>
    have hrest : ZeroIsPosition rest := fun step hstep => hzero step (List.mem_cons_of_mem _ hstep)
    simpa [Segment.stepAt] using follows_top_iff hrest

lemma exists_item_inject {before : List Step} {rest : Plan} {document : Json}
    (hmissing : document.find? before = none)
    (h : inject (before.map .step ++ .wildcard :: rest) values cardinality document = .ok written)
    {i : Nat} (hvalue : values[i]? = some value) :
    ∃ item, write value (pathAt rest i) .null = .ok item ∧
      written.find? (before ++ [.index i]) = some item := by
  have hw : hasWildcard (before.map .step ++ .wildcard :: rest) := by simp [hasWildcard]
  have hforks {j : Nat} (hj : j ≠ i) :
      Forks (before ++ .index j :: pathAt rest j) (before ++ [.index i]) :=
    ⟨before, .index j, .index i, pathAt rest j, [], rfl, rfl, Step.index_differs hj⟩
  obtain ⟨hi, rfl⟩ := List.getElem?_eq_some_iff.mp hvalue
  rw [inject_eq_writeAll, placements, if_pos hw, ← List.take_append_drop i values,
    List.drop_eq_getElem_cons hi, List.mapIdx_append, List.mapIdx_cons] at h
  simp only [pathAt_append, pathAt_steps, pathAt_wildcard, List.length_take, Nat.zero_add,
    Nat.min_eq_left (Nat.le_of_lt hi)] at h
  rw [List.append_cons before (.index i)] at h
  obtain ⟨item, hitem, hfound⟩ := find?_writeAll_single h
    (fun placement hmem => by
      obtain ⟨j, hj, rfl⟩ := List.mem_mapIdx.mp hmem
      rw [List.length_take] at hj
      exact hforks (by omega))
    (fun placement hmem => by
      obtain ⟨j, hj, rfl⟩ := List.mem_mapIdx.mp hmem
      exact hforks (by omega))
  rw [find?_append, hmissing, Option.bind_none, Option.getD_none] at hitem
  exact ⟨item, hitem, hfound⟩

lemma resolve_inject_ne {before : List Step} {rest : Plan} (hbefore : before ≠ [])
    (hrest : rest.hasWildcard) (hmany : 2 ≤ values.length)
    (hv : ∀ value ∈ values, value.kind ≠ .list ∧ value ≠ .null)
    (h : inject (before.map .step ++ .wildcard :: rest) values cardinality (.object []) =
      .ok written) :
    resolve (before.map .step ++ .wildcard :: rest) (some written) ≠ values := by
  have hmissing : Json.find? before (.object []) = none := by
    cases before with
    | nil => exact absurd rfl hbefore
    | cons step before => rfl
  have hnone : Json.IsListOrMissingAt before (.object []) := fun value hvalue => by
    rw [hmissing] at hvalue
    cases hvalue
  have hne : values ≠ [] := by
    rintro rfl
    simp at hmany
  have hwrites := h
  rw [inject_eq_writeAll] at hwrites
  obtain ⟨items, hitems⟩ := isListAt_of_placements hne hnone hwrites
  have hsecond : values[1]? = some values[1] := List.getElem?_eq_getElem hmany
  obtain ⟨hlist, hnull⟩ := hv values[1] (List.getElem_mem hmany)
  obtain ⟨item, hitem, hfound⟩ := exists_item_inject hmissing h hsecond
  have hat : items[1]? = some item := by
    rw [find?_append, hitems, Option.bind_some] at hfound
    simpa [find?_cons, child?, Json.find?] using hfound
  have hlong : rest.length ≤ (pathAt rest 1).length := by simp [pathAt]
  obtain ⟨-, hunread⟩ := resolve_chain hlist hnull hitem hlong
  intro hsame
  rw [resolve_steps_append, Option.bind_some, hitems] at hsame
  have hread := congrArg (·[1]?) hsame
  simp only [resolve, List.getElem?_map, hat, Option.map_some, hsecond] at hread
  exact hunread (not_follows_pathAt (by simp) hrest) (Option.some.inj hread)

lemma resolve_top_ne {rest : Plan} (hmany : 2 ≤ values.length)
    (h : inject (.wildcard :: rest) values cardinality (.object []) = .ok written) :
    resolve (.wildcard :: rest) (some written) ≠ values := by
  rw [inject_eq_writeAll] at h
  obtain ⟨members, rfl⟩ := object_of_writeAll (fun placement hmem => by
    obtain ⟨i, hi⟩ := exists_pathAt_of_mem_placements hmem
    simp [hi]) h
  intro hsame
  have hlength := congrArg List.length hsame
  simp only [resolve, List.length_singleton] at hlength
  omega

lemma two_le_count {plan : Plan} (htop : plan.head? ≠ some .wildcard)
    (hcount : 2 ≤ plan.count .wildcard) : ∃ (before : List Step) (rest : Plan), before ≠ [] ∧
      rest.hasWildcard ∧ plan = before.map .step ++ .wildcard :: rest := by
  have hw : plan.hasWildcard := by
    rw [hasWildcard, List.any_eq_true]
    exact ⟨.wildcard, List.count_pos_iff.mp (by omega), by simp⟩
  obtain ⟨before, rest, rfl⟩ := exists_eq_append_wildcard hw
  refine ⟨before, rest, ?_, ?_, rfl⟩
  · rintro rfl
    exact htop rfl
  · have hbefore : (before.map Segment.step).count .wildcard = 0 :=
      List.count_eq_zero.mpr (by simp)
    rw [List.count_append, hbefore, List.count_cons_self] at hcount
    rw [hasWildcard, List.any_eq_true]
    exact ⟨.wildcard, List.count_pos_iff.mp (by omega), by simp⟩

end Inject

end Plan

namespace Expression

open Plan

lemma zeroIsPosition_of_parse {source : String} {path : SlashedPath}
    (h : SlashedPath.parse source = .ok path) : path.plan.ZeroIsPosition := by
  intro step hstep htext
  rw [SlashedPath.step_eq_ofSegment_of_parse h hstep, htext]
  rfl

/-- Through a wildcard at the top or several wildcards, values are written into an empty object
without conflict. They are found again just when there is one of them and, with a wildcard at the
top, position zero comes next and nothing but wildcards and positions zero comes after it. -/
theorem evaluate_inject_wildcards_iff {source : String} {expression : Expression}
    (hparse : parse .simple source = .ok expression) {plan : Plan}
    (hplan : expression.plan? = some plan)
    (hshape : plan.head? = some .wildcard ∨ 2 ≤ plan.count .wildcard) {values : List Json}
    (hne : values ≠ []) (hv : ∀ value ∈ values, value.kind ≠ .list ∧ value ≠ .null)
    (cardinality : Cardinality) :
    ∃ written, expression.inject values cardinality (.object []) = .ok written ∧
      (expression.evaluate written = values ↔
        values.length = 1 ∧ (plan.head? = some .wildcard →
          ∃ rest, plan = .wildcard :: .step (.index 0) :: rest ∧
            ∀ segment ∈ rest, segment = .wildcard ∨ segment = .step (.index 0))) := by
  obtain ⟨written, hwritten⟩ := exists_inject_empty (plan_ne_nil hparse hplan) values cardinality
  have hinject : expression.inject values cardinality (.object []) = .ok written := by
    simp only [inject, hplan, hwritten]
  refine ⟨written, hinject, ?_⟩
  rw [evaluate_eq_resolve hparse hplan]
  obtain ⟨path, hpath, rfl⟩ := parse_simple hparse
  obtain rfl := Option.some.inj hplan
  by_cases hone : values.length = 1
  · obtain ⟨value, rfl⟩ := List.length_eq_one_iff.mp hone
    obtain ⟨hlist, hnull⟩ := hv value (List.mem_singleton_self value)
    have hw : path.plan.hasWildcard := by
      rw [hasWildcard, List.any_eq_true]
      refine ⟨.wildcard, ?_, by simp⟩
      obtain htop | hcount := hshape
      · exact List.mem_of_head? htop
      · exact List.count_pos_iff.mp (by omega)
    rw [resolve_inject_one_iff hw hlist hnull (zeroIsPosition_of_parse hpath) hwritten]
    simp
  · have hmany : 2 ≤ values.length := by
      have hpositive := List.length_pos_iff.mpr hne
      omega
    refine iff_of_false ?_ fun hboth => hone hboth.1
    by_cases htop : path.plan.head? = some .wildcard
    · obtain ⟨rest, hrest⟩ := List.head?_eq_some_iff.mp htop
      rw [hrest] at hwritten ⊢
      exact resolve_top_ne hmany hwritten
    · obtain ⟨before, rest, hbefore, hrest, heq⟩ := two_le_count htop (hshape.resolve_left htop)
      rw [heq] at hwritten ⊢
      exact resolve_inject_ne hbefore hrest hmany hv hwritten

section Cells

def rowCells : Expression :=
  .slashed ⟨"rows/*/cells/*", [.step (.key "rows"), .wildcard, .step (.key "cells"), .wildcard]⟩

/-- The lists below the first member of the items. -/
def firstOfItems : Expression :=
  .slashed ⟨"*/0/*", [.wildcard, .step (.index 0), .wildcard]⟩

def itemNames : Expression := .slashed ⟨"*/name", [.wildcard, .step (.key "name")]⟩

lemma parse_rowCells : parse .simple "rows/*/cells/*" = .ok rowCells := rfl

/-- The second cell goes to a member named by its position, where the wildcard takes the whole
object for the cell. -/
theorem evaluate_inject_rowCells_ne :
    ¬ ∀ (source : String) (expression : Expression) (plan : Plan) (values : List Json)
        (written : Json),
      parse .simple source = .ok expression → expression.plan? = some plan →
      plan.head? = some .wildcard ∨ 2 ≤ plan.count .wildcard →
      values ≠ [] → (∀ value ∈ values, value.kind ≠ .list ∧ value ≠ .null) →
      expression.inject values .unlimited (.object []) = .ok written →
      expression.evaluate written = values := by
  intro hall
  have hinject : rowCells.inject [.string "x", .string "y"] .unlimited (.object []) =
      .ok (.object [("rows", .list [.object [("cells", .list [.string "x"])],
        .object [("cells", .object [("1", .string "y")])]])]) := rfl
  have hread := hall _ rowCells _ _ _ parse_rowCells rfl (.inr (by decide)) (by simp)
    (by simp [Json.kind]) hinject
  have hfound : rowCells.evaluate (.object [("rows", .list [.object [("cells",
      .list [.string "x"])], .object [("cells", .object [("1", .string "y")])]])]) =
        [.string "x", .object [("1", .string "y")]] := rfl
  rw [hfound] at hread
  simp at hread

/-- One cell is found again and two are not; a value behind a wildcard at the top is found again in
lists at position zero, but not at a name. -/
theorem evaluate_inject_wildcards_iff_cells :
    (∃ written, rowCells.inject [.string "x"] .one (.object []) = .ok written ∧
      rowCells.evaluate written = [.string "x"]) ∧
    (∃ written, rowCells.inject [.string "x", .string "y"] .unlimited (.object []) = .ok written ∧
      rowCells.evaluate written ≠ [.string "x", .string "y"]) ∧
    (∃ written, firstOfItems.inject [.string "x"] .unlimited (.object []) = .ok written ∧
      firstOfItems.evaluate written = [.string "x"]) ∧
    ∃ written, itemNames.inject [.string "x"] .unlimited (.object []) = .ok written ∧
      itemNames.evaluate written ≠ [.string "x"] := by
  have hx : ∀ value ∈ [Json.string "x"], value.kind ≠ .list ∧ value ≠ .null := by
    simp [Json.kind]
  have hxy : ∀ value ∈ [Json.string "x", .string "y"], value.kind ≠ .list ∧ value ≠ .null := by
    simp [Json.kind]
  have hitems : parse .simple "*/0/*" = .ok firstOfItems := rfl
  have hnames : parse .simple "*/name" = .ok itemNames := rfl
  refine ⟨?_, ?_, ?_, ?_⟩
  · obtain ⟨written, hwritten, hiff⟩ := evaluate_inject_wildcards_iff parse_rowCells rfl
      (.inr (by decide)) (by simp) hx .one
    exact ⟨written, hwritten, hiff.mpr ⟨rfl, by simp⟩⟩
  · obtain ⟨written, hwritten, hiff⟩ := evaluate_inject_wildcards_iff parse_rowCells rfl
      (.inr (by decide)) (by simp) hxy .unlimited
    exact ⟨written, hwritten, fun hread => by simpa using (hiff.mp hread).1⟩
  · obtain ⟨written, hwritten, hiff⟩ := evaluate_inject_wildcards_iff hitems rfl (.inl rfl)
      (by simp) hx .unlimited
    exact ⟨written, hwritten, hiff.mpr ⟨rfl, fun _ => ⟨[.wildcard], rfl, by simp⟩⟩⟩
  · obtain ⟨written, hwritten, hiff⟩ := evaluate_inject_wildcards_iff hnames rfl (.inl rfl)
      (by simp) hx .unlimited
    refine ⟨written, hwritten, fun hread => ?_⟩
    obtain ⟨rest, hrest, -⟩ := (hiff.mp hread).2 rfl
    simp at hrest

end Cells

end Expression

end RecordMapping

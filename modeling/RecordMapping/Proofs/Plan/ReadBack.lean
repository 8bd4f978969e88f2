import RecordMapping.Dialect
import RecordMapping.Proofs.Plan.Resolve
import RecordMapping.Proofs.Text.Lines

namespace RecordMapping

lemma Cardinality.isSingle_iff {cardinality : Cardinality} :
    cardinality.isSingle = true ↔ cardinality = .one := by
  cases cardinality with
  | limited count positive small => simp [isSingle, one]
  | unlimited => simp [isSingle, one]

namespace Plan

lemma gather_of_many {values : List Json} {cardinality : Cardinality} (hl : 2 ≤ values.length)
    (hc : cardinality.isSingle = false) : gather cardinality values = some (.list values) := by
  match values, hl with
  | first :: second :: rest, _ => simp [gather, hc]

lemma gather_of_single {first : Json} {rest : List Json} {cardinality : Cardinality}
    (hc : cardinality.isSingle = true) : gather cardinality (first :: rest) = some first := by
  cases rest with
  | nil => rfl
  | cons second rest => simp [gather, hc]

theorem resolve_inject_of_no_wildcard {plan : Plan} (hw : plan.hasWildcard = false)
    {values : List Json} {cardinality : Cardinality} {document written value : Json}
    (hg : gather cardinality values = some value)
    (h : plan.inject values cardinality document = .ok written) :
    plan.resolve (some written) = resolve [] (some value) := by
  simp only [inject, hw, Bool.false_eq_true, if_false, hg] at h
  rw [resolve_of_no_wildcard hw, Json.find?_write h]

section Missing

variable {before after : List Step} {values : List Json} {cardinality : Cardinality}
  {document written : Json}

lemma find?_inject_of_missing (hmissing : document.find? before = none)
    (h : inject (before.map .step ++ .wildcard :: after.map .step) values cardinality document =
      .ok written) (i : Nat) : written.find? (before ++ .index i :: after) = values[i]? := by
  have hw : hasWildcard (before.map .step ++ .wildcard :: after.map .step) := by
    simp [hasWildcard]
  rw [inject_eq_writeAll] at h
  have hfound := find?_pathAt_writeAll hw h
    (fun j value hj => (mem_placements_of_wildcard hw).mpr ⟨j, value, hj, rfl⟩)
    (fun placement hp => Or.inl ((mem_placements_of_wildcard hw).mp hp)) i
  simp only [pathAt_append, pathAt_wildcard, pathAt_steps] at hfound
  rw [hfound, Json.find?_append, hmissing, Option.bind_none, Option.or_none]

lemma find?_item_inject_of_missing (hmissing : document.find? before = none)
    (h : inject (before.map .step ++ .wildcard :: after.map .step) values cardinality document =
      .ok written) {i : Nat} (hi : values[i]? = none) :
    written.find? (before ++ [.index i]) = none := by
  have hw : hasWildcard (before.map .step ++ .wildcard :: after.map .step) := by
    simp [hasWildcard]
  have hnone : document.find? (before ++ [.index i]) = none := by
    rw [Json.find?_append, hmissing, Option.bind_none]
  rw [inject_eq_writeAll] at h
  rw [← hnone]
  refine Json.find?_writeAll_of_forks h fun placement hp => ?_
  obtain ⟨j, value, hj, rfl⟩ := (mem_placements_of_wildcard hw).mp hp
  have hji : j ≠ i := by
    rintro rfl
    rw [hi] at hj
    cases hj
  exact ⟨before, .index j, .index i, after, [], by simp, rfl, Step.index_differs hji⟩

theorem resolve_inject_of_missing (hmissing : document.find? before = none)
    (hv : ∀ value ∈ values, value.kind ≠ .list)
    (h : inject (before.map .step ++ .wildcard :: after.map .step) values cardinality document =
      .ok written) :
    resolve (before.map .step ++ .wildcard :: after.map .step) (some written) = values := by
  by_cases hne : values = []
  · subst hne
    rw [inject_eq_writeAll, placements_nil] at h
    rw [← Except.ok.inj h, resolve_wildcard_of_missing hmissing]
  have hbefore : document.IsListOrMissingAt before := fun value hvalue => by
    rw [hmissing] at hvalue
    cases hvalue
  obtain ⟨items, hitems⟩ :=
    isListAt_of_placements hne hbefore (by rwa [inject_eq_writeAll] at h)
  have hplace : ∀ i : Nat, items[i]?.bind (Json.find? after) = values[i]? := by
    intro i
    rw [← find?_inject_of_missing hmissing h i, Json.find?_append, hitems]
    rfl
  have hitem : ∀ i : Nat, values[i]? = none → items[i]? = none := by
    intro i hi
    have habsent := find?_item_inject_of_missing hmissing h hi
    rw [Json.find?_append, hitems, Option.bind_some, Json.find?_cons] at habsent
    exact (Option.bind_fun_some _).symm.trans habsent
  apply List.ext_getElem?
  intro i
  rw [resolve_wildcard_of_list hitems, List.getElem?_map]
  cases hvalue : values[i]? with
  | none => rw [hitem i hvalue, Option.map_none]
  | some value =>
    have hfound := hplace i
    rw [hvalue] at hfound
    obtain ⟨item, hi, hfind⟩ := Option.bind_eq_some_iff.mp hfound
    have hnot : value.kind ≠ .list := hv value (List.mem_of_getElem? hvalue)
    rw [hi, Option.map_some, hfind, resolve_nil_of_not_list hnot]
    rfl

end Missing

end Plan

namespace SlashedPath

lemma plan_ne_nil {source : String} {path : SlashedPath} (h : parse source = .ok path) :
    path.plan ≠ [] := by
  unfold parse at h
  split at h
  · cases h
  · split at h
    · rename_i plan hplan
      obtain rfl := Except.ok.inj h
      rintro rfl
      cases hpieces : pieces '/' source.toList with
      | nil => exact pieces_ne_nil '/' source.toList hpieces
      | cons piece rest =>
        simp only [hpieces, segmentsFrom] at hplan
        split at hplan
        · cases hplan
        · split at hplan
          · cases hplan
          · cases hplan
    · cases h

end SlashedPath

namespace Expression

lemma inject_ok {expression : Expression} {plan : Plan} (hplan : expression.plan? = some plan)
    {values : List Json} {cardinality : Cardinality} {document written : Json}
    (h : expression.inject values cardinality document = .ok written) :
    plan.inject values cardinality document = .ok written := by
  simp only [inject, hplan] at h
  split at h
  · rename_i result hresult
    rw [hresult, Except.ok.inj h]
  · cases h

lemma parse_simple {source : String} {expression : Expression}
    (h : parse .simple source = .ok expression) :
    ∃ path, SlashedPath.parse source = .ok path ∧ expression = .slashed path := by
  simp only [parse] at h
  split at h
  · rename_i path hpath
    exact ⟨path, hpath, (Except.ok.inj h).symm⟩
  · cases h

lemma evaluate_eq_resolve {source : String} {expression : Expression}
    (hparse : parse .simple source = .ok expression) {plan : Plan}
    (hplan : expression.plan? = some plan) (document : Json) :
    expression.evaluate document = plan.resolve (some document) := by
  obtain ⟨path, -, rfl⟩ := parse_simple hparse
  obtain rfl := Option.some.inj hplan
  rfl

lemma plan_ne_nil {source : String} {expression : Expression}
    (hparse : parse .simple source = .ok expression) {plan : Plan}
    (hplan : expression.plan? = some plan) : plan ≠ [] := by
  obtain ⟨path, hpath, rfl⟩ := parse_simple hparse
  obtain rfl := Option.some.inj hplan
  exact SlashedPath.plan_ne_nil hpath

/-- Injected values are found again. With one wildcard, whose list was not there before, they are
found one by one; without wildcards the place gives the list of several values, the first one when
the field holds one value, and a single value. -/
theorem evaluate_inject {source : String} {expression : Expression}
    (hparse : parse .simple source = .ok expression) {plan : Plan}
    (hplan : expression.plan? = some plan) :
    (∀ (before after : List Step) (values : List Json) (cardinality : Cardinality)
        (document written : Json),
      plan = before.map .step ++ .wildcard :: after.map .step → document.find? before = none →
      (∀ value ∈ values, value.kind ≠ .list) →
      expression.inject values cardinality document = .ok written →
      expression.evaluate written = values) ∧
    (plan.hasWildcard = false →
      ∀ (values : List Json) (cardinality : Cardinality) (document written : Json),
      expression.inject values cardinality document = .ok written →
      (2 ≤ values.length → cardinality ≠ .one → expression.evaluate written = values) ∧
      (∀ first rest, values = first :: rest → cardinality = .one → first.kind ≠ .list →
        expression.evaluate written = [first]) ∧
      (∀ value, values = [value] → value.kind ≠ .list →
        expression.evaluate written = values)) := by
  constructor
  · rintro before after values cardinality document written rfl hmissing hv h
    rw [evaluate_eq_resolve hparse hplan]
    exact Plan.resolve_inject_of_missing hmissing hv (inject_ok hplan h)
  · intro hw values cardinality document written h
    have hread : ∀ value, Plan.gather cardinality values = some value →
        expression.evaluate written = Plan.resolve [] (some value) := fun value hg => by
      rw [evaluate_eq_resolve hparse hplan]
      exact Plan.resolve_inject_of_no_wildcard hw hg (inject_ok hplan h)
    refine ⟨fun hl hc => ?_, ?_, ?_⟩
    · have hsingle : cardinality.isSingle = false := by
        simpa [Cardinality.isSingle_iff, ← Bool.not_eq_true] using hc
      exact hread _ (Plan.gather_of_many hl hsingle)
    · rintro first rest rfl rfl hfirst
      rw [hread first (Plan.gather_of_single (Cardinality.isSingle_iff.mpr rfl)),
        Plan.resolve_nil_of_not_list hfirst]
    · rintro value rfl hvalue
      rw [hread value rfl, Plan.resolve_nil_of_not_list hvalue]

def tagLabels : Expression :=
  .slashed ⟨"tags/*/label", [.step (.key "tags"), .wildcard, .step (.key "label")]⟩

def firstTag : Expression := .slashed ⟨"tags/0", [.step (.key "tags"), .step (.index 0)]⟩

theorem evaluate_inject_tags :
    (∃ written, tagLabels.inject [.null, .object []] .one (.object [("id", .string "7")]) =
        .ok written ∧ tagLabels.evaluate written = [.null, .object []]) ∧
      ∃ written, firstTag.inject [.string "a", .list []] .unlimited (.object []) = .ok written ∧
        firstTag.evaluate written = [.string "a", .list []] := by
  constructor
  · have hparse : parse .simple "tags/*/label" = .ok tagLabels := rfl
    have hinject : tagLabels.inject [.null, .object []] .one (.object [("id", .string "7")]) =
        .ok (.object [("id", .string "7"),
          ("tags", .list [.object [("label", .null)], .object [("label", .object [])]])]) := rfl
    exact ⟨_, hinject, (evaluate_inject hparse rfl).1 [.key "tags"] [.key "label"] _ _ _ _ rfl rfl
      (by simp [Json.kind]) hinject⟩
  · have hparse : parse .simple "tags/0" = .ok firstTag := rfl
    have hinject : firstTag.inject [.string "a", .list []] .unlimited (.object []) =
        .ok (.object [("tags", .list [.list [.string "a", .list []]])]) := rfl
    exact ⟨_, hinject, ((evaluate_inject hparse rfl).2 rfl _ _ _ _ hinject).1 (Nat.le_refl 2)
      (by simp [Cardinality.one])⟩

end Expression

end RecordMapping

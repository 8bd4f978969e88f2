import RecordMapping.Proofs.Plan.Places

namespace RecordMapping

namespace Plan

@[simp] lemma resolve_none (plan : Plan) : resolve plan none = [] := by
  induction plan with
  | nil => rfl
  | cons segment rest ih =>
    cases segment with
    | step step => exact ih
    | wildcard => rfl

theorem resolve_steps_append (steps : List Step) (rest : Plan) (found : Option Json) :
    resolve (steps.map .step ++ rest) found = resolve rest (found.bind (Json.find? steps)) := by
  induction steps generalizing found with
  | nil => cases found <;> rfl
  | cons step steps ih =>
    simp only [List.map_cons, List.cons_append, resolve, ih]
    cases found <;> rfl

lemma resolve_steps (steps : List Step) (document : Json) :
    resolve (steps.map .step) (some document) = resolve [] (document.find? steps) := by
  simpa using resolve_steps_append steps [] (some document)

theorem resolve_of_no_wildcard {plan : Plan} (h : plan.hasWildcard = false) (document : Json) :
    resolve plan (some document) = resolve [] (document.find? (plan.pathAt 0)) := by
  have hplan := eq_map_step h 0
  conv_lhs => rw [hplan]
  exact resolve_steps (plan.pathAt 0) document

lemma resolve_nil_of_not_list {value : Json} (h : value.kind ≠ .list) :
    resolve [] (some value) = [value] := by
  cases value with
  | list items => exact absurd rfl h
  | _ => rfl

lemma resolve_wildcard_of_list {before after : List Step} {document : Json} {items : List Json}
    (h : document.find? before = some (.list items)) :
    resolve (before.map .step ++ .wildcard :: after.map .step) (some document) =
      items.map fun item => (resolve [] (item.find? after)).head?.getD .null := by
  rw [resolve_steps_append, Option.bind_some, h]
  simp only [resolve, resolve_steps]

lemma resolve_wildcard_of_missing {before : List Step} {rest : Plan} {document : Json}
    (h : document.find? before = none) :
    resolve (before.map .step ++ .wildcard :: rest) (some document) = [] := by
  rw [resolve_steps_append, Option.bind_some, h, resolve_none]

/-- At each position a plan with one wildcard finds the first value of its place, or null. -/
theorem getD_resolve_wildcard {before after : List Step} {document : Json}
    (hl : document.IsListOrMissingAt before) (i : Nat) :
    (resolve (before.map .step ++ .wildcard :: after.map .step) (some document))[i]?.getD .null =
      (resolve [] (document.find? (before ++ .index i :: after))).head?.getD .null := by
  cases hfound : document.find? before with
  | none =>
    rw [resolve_wildcard_of_missing hfound, Json.find?_append, hfound]
    rfl
  | some found =>
    obtain ⟨items, rfl⟩ := hl found hfound
    rw [resolve_wildcard_of_list hfound, List.getElem?_map, Json.find?_append, hfound,
      Option.bind_some, Json.find?_cons]
    simp only [Json.child?]
    cases items[i]? <;> rfl

end Plan

end RecordMapping

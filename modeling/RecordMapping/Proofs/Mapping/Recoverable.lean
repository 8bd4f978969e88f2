import RecordMapping.Proofs.Mapping.Creation
import RecordMapping.Proofs.Plan.ReadBack

/-!
# Values that a document can give back

Entity values come back from the document that they were written into when no two of them go to one
place and every delta of a field has the same properties. All injections write into one document,
so what a property finds rests on what each injection leaves alone: the places of other plans, and
the lists before wildcards, which stay lists however many injections share and extend them.
-/

namespace RecordMapping

namespace Plan

lemma hasWildcard_eq_false_of_count (plan : Plan) (h : plan.count .wildcard = 0) :
    plan.hasWildcard = false := by
  rw [List.count_eq_zero] at h
  simp only [hasWildcard, List.any_eq_false, beq_iff_eq]
  rintro segment hmem rfl
  exact h hmem

lemma exists_eq_of_count {plan : Plan} (hcount : plan.count .wildcard ≤ 1)
    (hhead : plan.head? ≠ some .wildcard) (hw : plan.hasWildcard) :
    ∃ before after : List Step, before ≠ [] ∧
      plan = before.map .step ++ .wildcard :: after.map .step := by
  obtain ⟨before, rest, rfl⟩ := exists_eq_append_wildcard hw
  rw [List.count_append, List.count_cons_self] at hcount
  have hrest := eq_map_step (hasWildcard_eq_false_of_count rest (by omega)) 0
  refine ⟨before, pathAt rest 0, ?_, by rw [← hrest]⟩
  rintro rfl
  exact hhead rfl

/-- A plan that diverges from one with a wildcard either forks before the wildcard or has a wildcard
in the same place. -/
lemma Diverge.forks_or_wildcard {plan after : Plan} {before : List Step}
    (h : Diverge plan (before.map .step ++ .wildcard :: after)) :
    (∀ i, Forks (plan.pathAt i) before) ∨ ∃ rest, plan = before.map .step ++ .wildcard :: rest := by
  induction before generalizing plan with
  | nil =>
    cases plan with
    | nil => exact absurd h ForksBy.not_nil_left
    | cons segment rest =>
      rcases ForksBy.cons_cons_iff.mp h with ⟨s, t, -, ht, -⟩ | ⟨rfl, -⟩
      · cases ht
      · exact Or.inr ⟨rest, rfl⟩
  | cons step before ih =>
    cases plan with
    | nil => exact absurd h ForksBy.not_nil_left
    | cons segment rest =>
      rcases ForksBy.cons_cons_iff.mp h with ⟨s, t, rfl, ht, hd⟩ | ⟨rfl, hrest⟩
      · obtain rfl := Segment.step.inj ht
        exact Or.inl fun i => ForksBy.cons_cons_iff.mpr (Or.inl hd)
      · rcases ih hrest with hf | ⟨rest', rfl⟩
        · exact Or.inl fun i => (hf i).cons step
        · exact Or.inr ⟨rest', rfl⟩

lemma gather_eq_unlimited {values : List Json} {cardinality : Cardinality}
    (h : 2 ≤ values.length → cardinality ≠ .one) :
    gather cardinality values = gather .unlimited values := by
  match values, h with
  | [], _ => rfl
  | [value], _ => rfl
  | first :: second :: rest, h =>
    have hsingle : cardinality.isSingle = false := by
      simpa [Cardinality.isSingle_iff, ← Bool.not_eq_true] using h (by simp)
    rw [gather_of_many (by simp) hsingle, gather_of_many (by simp) rfl]

lemma resolve_gather_unlimited {values : List Json} (hv : ∀ value ∈ values, value.kind ≠ .list) :
    resolve [] (gather .unlimited values) = values := by
  match values, hv with
  | [], _ => rfl
  | [value], hv => exact resolve_nil_of_not_list (hv value (by simp))
  | first :: second :: rest, _ => rfl

end Plan

namespace Mapper

def givenTo (values : EntityValues) (field : MappedField) (property : MappedProperty) : List Json :=
  given property.name ((values.find? field.definition.name).getD [])

/-- A value in normal form that a single place can hold and that counts as present. -/
structure Storable (field : MappedField) (property : MappedProperty) (value : Json) : Prop where
  present : value ≠ .null
  scalar : value.isContainer = false
  referring : property.name = referenceProperty → value ≠ .string ""
  normal : normalize property.kind field.definition.dateForm value = value

/-- Deltas of a field that a document can give back: each path-mapped property is in all of them or
in none, one of them is in all, and nothing else is there. -/
structure Complete (field : MappedField) (deltas : List Delta) : Prop where
  nonempty : deltas ≠ []
  known : ∀ delta ∈ deltas, ∀ name value, delta.find? name = some value →
    ∃ property ∈ field.mapped, property.name = name ∧
      ∃ expression, property.expression? = some expression
  uniform : ∀ property ∈ field.mapped, ∀ expression, property.expression? = some expression →
    (∀ delta ∈ deltas, (delta.find? property.name).isSome) ∨
      ∀ delta ∈ deltas, delta.find? property.name = none
  carried : ∃ property ∈ field.mapped, ∃ expression, property.expression? = some expression ∧
    ∀ delta ∈ deltas, (delta.find? property.name).isSome
  storable : ∀ property ∈ field.mapped, ∀ delta ∈ deltas, ∀ value,
    delta.find? property.name = some value → Storable field property value
  several : 2 ≤ deltas.length → field.definition.cardinality ≠ .one ∨
    ∀ property ∈ field.mapped, ∀ plan, property.plan? = some plan → plan.hasWildcard

/-- Entity values that a mapper can take to a document and back: plans have at most one wildcard,
which is not their first segment, any two diverge or are the same and take the same values, and the
deltas of every field are complete. -/
structure Recoverable (mapper : Mapper) (values : EntityValues) : Prop where
  wildcards : ∀ field ∈ mapper.fields, ∀ property ∈ field.mapped, ∀ plan,
    property.plan? = some plan → plan.count .wildcard ≤ 1 ∧ plan.head? ≠ some .wildcard
  separate : ∀ f ∈ mapper.fields, ∀ p ∈ f.mapped, ∀ g ∈ mapper.fields, ∀ q ∈ g.mapped,
    ∀ planP planQ, p.plan? = some planP → q.plan? = some planQ →
      Plan.Diverge planP planQ ∨ planP = planQ ∧ givenTo values f p = givenTo values g q
  complete : ∀ name deltas, values.find? name = some deltas →
    ∃ field, mapper.field? name = some field ∧ Complete field deltas

lemma Storable.kind_ne_list {field : MappedField} {property : MappedProperty} {value : Json}
    (h : Storable field property value) : value.kind ≠ .list := by
  intro hk
  have hs := h.scalar
  rw [Json.isContainer, hk] at hs
  cases hs

lemma Complete.getElem?_given {field : MappedField} {deltas : List Delta}
    (h : Complete field deltas) {property : MappedProperty} (hp : property ∈ field.mapped)
    {expression : Expression} (he : property.expression? = some expression) (i : Nat) :
    (given property.name deltas)[i]? = deltas[i]?.bind (Dictionary.find? property.name) := by
  rcases h.uniform property hp expression he with hall | hnone
  · cases hi : deltas[i]? with
    | none =>
      have hlen : (given property.name deltas).length ≤ i := by
        have hle := List.length_filterMap_le (Dictionary.find? property.name) deltas
        have hge := List.getElem?_eq_none_iff.mp hi
        exact Nat.le_trans hle hge
      rw [List.getElem?_eq_none hlen, Option.bind_none]
    | some delta =>
      obtain ⟨value, hvalue⟩ :=
        Option.isSome_iff_exists.mp (hall delta (List.mem_of_getElem? hi))
      have hfirst : CarriersFirst property.name deltas :=
        List.pairwise_of_forall_mem_list fun a ha _ _ _ => hall a ha
      rw [Option.bind_some, hvalue]
      exact getElem?_given_self_iff.mpr hfirst i delta value hi hvalue
  · have hempty : given property.name deltas = [] := List.filterMap_eq_nil_iff.mpr hnone
    rw [hempty, List.getElem?_nil]
    cases hi : deltas[i]? with
    | none => rfl
    | some delta => exact (hnone delta (List.mem_of_getElem? hi)).symm

lemma Complete.storable_given {field : MappedField} {deltas : List Delta}
    (h : Complete field deltas) {property : MappedProperty} (hp : property ∈ field.mapped)
    {value : Json} (hv : value ∈ given property.name deltas) : Storable field property value := by
  obtain ⟨delta, hdelta, hvalue⟩ := List.mem_filterMap.mp hv
  exact h.storable property hp delta hdelta value hvalue

section Document

variable {mapper : Mapper} {values : EntityValues} {raw : Json}

lemma exists_of_mem_injections {injection : Injection}
    (h : injection ∈ mapper.injections values) :
    ∃ field property deltas, mapper.field? field.definition.name = some field ∧
      property ∈ field.mapped ∧ property.plan? = some injection.plan ∧
      values.find? field.definition.name = some deltas ∧
      injection.values = given property.name deltas ∧
      injection.cardinality = field.definition.cardinality := by
  obtain ⟨name, deltas, field, property, plan, hfind, hfield, hp, hplan, rfl⟩ := mem_injections.mp h
  obtain ⟨-, rfl⟩ := mem_of_field? hfield
  exact ⟨field, property, deltas, hfield, hp, hplan, hfind, rfl, rfl⟩

lemma Recoverable.complete_of_find? (hv : Recoverable mapper values) {field : MappedField}
    (hfield : mapper.field? field.definition.name = some field) {deltas : List Delta}
    (hfind : values.find? field.definition.name = some deltas) : Complete field deltas := by
  obtain ⟨field', hfield', hcomplete⟩ := hv.complete field.definition.name deltas hfind
  obtain rfl := Option.some.inj (hfield.symm.trans hfield')
  exact hcomplete

lemma givenTo_of_find? {field : MappedField} {deltas : List Delta}
    (h : values.find? field.definition.name = some deltas) (property : MappedProperty) :
    givenTo values field property = given property.name deltas := by
  rw [givenTo, h, Option.getD_some]

lemma givenTo_eq_nil_or_mem {dialect : Dialect} (hr : Ready dialect mapper.fields)
    {field : MappedField} (hf : field ∈ mapper.fields) {property : MappedProperty}
    (hp : property ∈ field.mapped) {plan : Plan} (hplan : property.plan? = some plan) :
    givenTo values field property = [] ∨
      ∃ injection ∈ mapper.injections values,
        injection.plan = plan ∧ injection.values = givenTo values field property := by
  cases hfind : values.find? field.definition.name with
  | none =>
    left
    rw [givenTo, hfind]
    rfl
  | some deltas =>
    right
    have hfield := hr.field?_eq hf (List.ne_nil_of_mem hp)
    refine ⟨_, mem_injections.mpr ⟨field.definition.name, deltas, field, property, plan, hfind,
      hfield, hp, hplan, rfl⟩, rfl, (givenTo_of_find? hfind property).symm⟩

lemma Recoverable.storable_givenTo {dialect : Dialect} (hv : Recoverable mapper values)
    (hr : Ready dialect mapper.fields) {field : MappedField} (hf : field ∈ mapper.fields)
    {property : MappedProperty} (hp : property ∈ field.mapped) {value : Json}
    (hvalue : value ∈ givenTo values field property) : Storable field property value := by
  cases hfind : values.find? field.definition.name with
  | none =>
    rw [givenTo, hfind] at hvalue
    cases hvalue
  | some deltas =>
    have hfield := hr.field?_eq hf (List.ne_nil_of_mem hp)
    rw [givenTo_of_find? hfind] at hvalue
    exact (hv.complete_of_find? hfield hfind).storable_given hp hvalue

lemma Recoverable.diverge_or_eq (hv : Recoverable mapper values) {field : MappedField}
    (hf : field ∈ mapper.fields) {property : MappedProperty} (hp : property ∈ field.mapped)
    {plan : Plan} (hplan : property.plan? = some plan) {injection : Injection}
    (hi : injection ∈ mapper.injections values) :
    Plan.Diverge injection.plan plan ∨
      injection.plan = plan ∧ injection.values = givenTo values field property := by
  obtain ⟨g, q, deltas, hg, hq, hplanQ, hfind, hvalues, -⟩ := exists_of_mem_injections hi
  rw [hvalues, ← givenTo_of_find? hfind]
  have hgmem := (mem_of_field? hg).1
  exact hv.separate g hgmem q hq field hf property hp injection.plan plan hplanQ hplan

lemma Recoverable.gather_eq (hv : Recoverable mapper values) {injection : Injection}
    (hi : injection ∈ mapper.injections values) (hw : injection.plan.hasWildcard = false) :
    Plan.gather injection.cardinality injection.values =
      Plan.gather .unlimited injection.values := by
  obtain ⟨field, property, deltas, hfield, hp, hplan, hfind, hvalues, hcard⟩ :=
    exists_of_mem_injections hi
  refine Plan.gather_eq_unlimited fun hlen => ?_
  have hdeltas : 2 ≤ deltas.length := by
    rw [hvalues] at hlen
    exact Nat.le_trans hlen (List.length_filterMap_le _ _)
  rw [hcard]
  rcases (hv.complete_of_find? hfield hfind).several hdeltas with hmany | hwild
  · exact hmany
  · rw [hwild property hp injection.plan hplan] at hw
    cases hw

lemma Recoverable.mem_placements_iff (hv : Recoverable mapper values) {plan : Plan}
    (hw : plan.hasWildcard = false) {injection : Injection}
    (hi : injection ∈ mapper.injections values) (hplan : injection.plan = plan)
    {placement : Placement} :
    placement ∈ injection.placements ↔ ∃ value,
      Plan.gather .unlimited injection.values = some value ∧
        placement = (plan.pathAt 0, value) := by
  subst hplan
  rw [← hv.gather_eq hi hw]
  exact Plan.mem_placements_of_no_wildcard hw

/-- Every write avoids the place of a plan without wildcards or makes its value. -/
lemma Recoverable.forks_or_gathered (hv : Recoverable mapper values) {field : MappedField}
    (hf : field ∈ mapper.fields) {property : MappedProperty} (hp : property ∈ field.mapped)
    {plan : Plan} (hplan : property.plan? = some plan) (hw : plan.hasWildcard = false)
    {placement : Placement}
    (hplacement : placement ∈ (mapper.injections values).flatMap Injection.placements) :
    Forks placement.1 (plan.pathAt 0) ∨ ∃ value,
      Plan.gather .unlimited (givenTo values field property) = some value ∧
        placement = (plan.pathAt 0, value) := by
  obtain ⟨injection, hi, hmem⟩ := List.mem_flatMap.mp hplacement
  rcases hv.diverge_or_eq hf hp hplan hi with hd | ⟨heq, hvalues⟩
  · obtain ⟨i, hpath⟩ := Plan.exists_pathAt_of_mem_placements hmem
    exact Or.inl (hpath ▸ hd.forks_pathAt i 0)
  · rw [← hvalues]
    exact Or.inr ((hv.mem_placements_iff hw hi heq).mp hmem)

lemma find?_create_of_no_wildcard {dialect : Dialect} (hr : Ready dialect mapper.fields)
    (hv : Recoverable mapper values) (h : mapper.create values = .ok raw) {field : MappedField}
    (hf : field ∈ mapper.fields) {property : MappedProperty} (hp : property ∈ field.mapped)
    {plan : Plan} (hplan : property.plan? = some plan) (hw : plan.hasWildcard = false)
    (hne : plan ≠ []) :
    raw.find? (plan.pathAt 0) = Plan.gather .unlimited (givenTo values field property) := by
  cases hg : Plan.gather .unlimited (givenTo values field property) with
  | none =>
    have havoid : ∀ placement ∈ (mapper.injections values).flatMap Injection.placements,
        Forks placement.1 (plan.pathAt 0) := by
      intro placement hplacement
      rcases hv.forks_or_gathered hf hp hplan hw hplacement with hforks | ⟨value, hvalue, -⟩
      · exact hforks
      · rw [hg] at hvalue
        cases hvalue
    rw [Json.find?_writeAll_of_forks (create_ok h) havoid]
    exact find?_object_nil (by simpa [Plan.pathAt] using hne)
  | some value =>
    have hmem : (plan.pathAt 0, value) ∈
        (mapper.injections values).flatMap Injection.placements := by
      rcases givenTo_eq_nil_or_mem hr hf hp hplan with hnil | ⟨injection, hi, heq, hvalues⟩
      · rw [hnil] at hg
        cases hg
      · rw [← hvalues] at hg
        exact List.mem_flatMap.mpr
          ⟨injection, hi, (hv.mem_placements_iff hw hi heq).mpr ⟨value, hg, rfl⟩⟩
    apply Json.find?_writeAll (create_ok h) hmem
    intro placement hplacement
    apply (hv.forks_or_gathered hf hp hplan hw hplacement).imp_right
    rintro ⟨value', hvalue', rfl⟩
    rw [Option.some.inj (hg.symm.trans hvalue')]

lemma isListOrMissingAt_create (hv : Recoverable mapper values)
    (h : mapper.create values = .ok raw) {field : MappedField} (hf : field ∈ mapper.fields)
    {property : MappedProperty} (hp : property ∈ field.mapped) {before : List Step} {after : Plan}
    (hplan : property.plan? = some (before.map .step ++ .wildcard :: after)) (hne : before ≠ []) :
    raw.IsListOrMissingAt before := by
  refine Json.writeAll_flatMap_invariant (Json.IsListOrMissingAt before) Injection.placements
    (mapper.injections values) (fun injection hi d e hd he => ?_) ?_ (create_ok h)
  · -- An injection either avoids the list or enters it at the same wildcard.
    have hcases : (∀ i, Forks (injection.plan.pathAt i) before) ∨
        ∃ rest, injection.plan = before.map .step ++ .wildcard :: rest := by
      rcases hv.diverge_or_eq hf hp hplan hi with hdiverge | ⟨heq, -⟩
      · exact hdiverge.forks_or_wildcard
      · exact Or.inr ⟨after, heq⟩
    rcases hcases with hforks | ⟨rest, hrest⟩
    · intro value hvalue
      refine hd value ?_
      rw [← hvalue]
      refine (Json.find?_writeAll_of_forks he fun placement hmem => ?_).symm
      obtain ⟨i, hplace⟩ := Plan.exists_pathAt_of_mem_placements hmem
      exact hplace ▸ hforks i
    · rw [Injection.placements, hrest] at he
      exact Plan.isListOrMissingAt_of_placements hd he
  · intro value hvalue
    rw [find?_object_nil hne] at hvalue
    cases hvalue

/-- At every position a plan finds what was given to its property there, or null. -/
theorem getD_resolve_create {dialect : Dialect} (hr : Ready dialect mapper.fields)
    (hv : Recoverable mapper values) (h : mapper.create values = .ok raw) {field : MappedField}
    (hf : field ∈ mapper.fields) {property : MappedProperty} (hp : property ∈ field.mapped)
    {plan : Plan} (hplan : property.plan? = some plan) (hne : plan ≠ []) (i : Nat) :
    (plan.resolve (some raw))[i]?.getD .null =
      (givenTo values field property)[i]?.getD .null := by
  have hlist : ∀ value ∈ givenTo values field property, value.kind ≠ .list :=
    fun value hvalue => (hv.storable_givenTo hr hf hp hvalue).kind_ne_list
  cases hw : plan.hasWildcard with
  | false =>
    rw [Plan.resolve_of_no_wildcard hw, find?_create_of_no_wildcard hr hv h hf hp hplan hw hne,
      Plan.resolve_gather_unlimited hlist]
  | true =>
    obtain ⟨hcount, hhead⟩ := hv.wildcards field hf property hp plan hplan
    obtain ⟨before, after, hbefore, rfl⟩ := Plan.exists_eq_of_count hcount hhead hw
    have hplace := find?_create_of_wildcard h hw (givenTo_eq_nil_or_mem hr hf hp hplan)
      (fun injection hi => (hv.diverge_or_eq hf hp hplan hi).imp_left Plan.Diverge.apart) i
    simp only [Plan.pathAt_append, Plan.pathAt_wildcard, Plan.pathAt_steps] at hplace
    rw [Plan.getD_resolve_wildcard (isListOrMissingAt_create hv h hf hp hplan hbefore), hplace]
    cases hvalue : (givenTo values field property)[i]? with
    | none => rfl
    | some value =>
      rw [Plan.resolve_nil_of_not_list (hlist value (List.mem_of_getElem? hvalue))]
      rfl

end Document

end Mapper

end RecordMapping

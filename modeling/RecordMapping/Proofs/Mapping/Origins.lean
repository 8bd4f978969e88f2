import RecordMapping.Proofs.Document.Leaves
import RecordMapping.Proofs.Mapping.Unblocked

/-!
# Where created data comes from

Every leaf of a created document has an origin: a value that a delta gives to a property with an
expression. Neither the containers and nulls that a write puts on its way nor constants, unknown
fields or unmapped properties are seen as leaves.
-/

namespace RecordMapping

namespace Plan

/-- A place below the one that the value at a position takes through a plan, or below its item of
the list that several values become. Steps are compared by their texts. -/
def PutsAt (plan : Plan) (count position : Nat) (below place : List Step) : Prop :=
  place.map Step.text = (plan.pathAt position ++ below).map Step.text ∨
    plan.hasWildcard = false ∧ 2 ≤ count ∧
      place.map Step.text = (plan.pathAt 0 ++ .index position :: below).map Step.text

lemma leaf_of_gather {cardinality : Cardinality} {values : List Json} {gathered leaf : Json}
    (hg : gather cardinality values = some gathered) (hleaf : leaf.isLeaf) {below : List Step}
    (hfound : gathered.find? below = some leaf) :
    (∃ value, values[0]? = some value ∧ value.find? below = some leaf) ∨
    2 ≤ values.length ∧ ∃ i value rest, values[i]? = some value ∧ below = .index i :: rest ∧
      value.find? rest = some leaf := by
  match values with
  | [] => cases hg
  | [value] =>
    obtain rfl := Option.some.inj hg
    exact .inl ⟨value, rfl, hfound⟩
  | first :: second :: rest =>
    have hgathered := Option.some.inj hg
    split at hgathered
    · exact .inl ⟨first, rfl, hgathered ▸ hfound⟩
    · subst hgathered
      refine .inr ⟨by simp, ?_⟩
      cases below with
      | nil =>
        obtain rfl := Option.some.inj hfound
        cases hleaf
      | cons step more =>
        cases step with
        | key name => cases hfound
        | index i =>
          obtain ⟨value, hvalue, hmore⟩ := Option.bind_eq_some_iff.mp hfound
          exact ⟨i, value, more, hvalue, rfl, hmore⟩

theorem leaf_of_mem_placements {plan : Plan} {values : List Json} {cardinality : Cardinality}
    {placement : Placement} (hp : placement ∈ plan.placements values cardinality) {leaf : Json}
    (hleaf : leaf.isLeaf) {below place : List Step}
    (hplace : place.map Step.text = (placement.1 ++ below).map Step.text)
    (hfound : placement.2.find? below = some leaf) :
    ∃ i value rest, values[i]? = some value ∧ value.find? rest = some leaf ∧
      plan.PutsAt values.length i rest place := by
  cases hw : plan.hasWildcard with
  | true =>
    obtain ⟨i, value, hvalue, rfl⟩ := (mem_placements_of_wildcard hw).mp hp
    exact ⟨i, value, below, hvalue, hfound, .inl hplace⟩
  | false =>
    obtain ⟨gathered, hg, rfl⟩ := (mem_placements_of_no_wildcard hw).mp hp
    obtain ⟨value, hvalue, hbelow⟩ | ⟨hmany, i, value, rest, hvalue, rfl, hrest⟩ :=
      leaf_of_gather hg hleaf hfound
    · exact ⟨0, value, below, hvalue, hbelow, .inl hplace⟩
    · exact ⟨i, value, rest, hvalue, hrest, .inr ⟨hw, hmany, hplace⟩⟩

end Plan

namespace Mapper

/-- A leaf at a place is one of a value that entity values give to a path-mapped property of a field
of the mapper. -/
def HasOrigin (mapper : Mapper) (values : EntityValues) (place : List Step) (leaf : Json) : Prop :=
  ∃ name deltas field property plan, values.find? name = some deltas ∧
    mapper.field? name = some field ∧ property ∈ field.mapped ∧ property.plan? = some plan ∧
    ∃ i value below, (given property.name deltas)[i]? = some value ∧
      value.find? below = some leaf ∧
      plan.PutsAt (given property.name deltas).length i below place

lemma plan_ne_nil_of_mem_injections {mapper : Mapper} (hr : Ready .simple mapper.fields)
    {values : EntityValues} {injection : Injection} (h : injection ∈ mapper.injections values) :
    injection.plan ≠ [] := by
  obtain ⟨name, deltas, field, property, plan, -, hf, hp, hplan, rfl⟩ := mem_injections.mp h
  obtain ⟨expression, he, hexpression⟩ := Option.bind_eq_some_iff.mp hplan
  obtain ⟨plan', hplan', hnil⟩ :=
    (hr.compiled field (mem_of_field? hf).1).writable property hp expression he
  obtain rfl := Option.some.inj (hexpression.symm.trans hplan')
  exact hnil

/-- Creation through slash-separated expressions gives an object, and all leaves below its root have
an origin. -/
theorem create_leaves {entityType : String} {config : MapperConfig} {schema : Schema}
    {catalog : Catalog} {mapper : Mapper} (hb : build entityType config schema catalog = .ok mapper)
    (hsimple : config.dialect = .simple) {values : EntityValues} {raw : Json}
    (h : mapper.create values = .ok raw) :
    (∃ members, raw = .object members) ∧
    ∀ place leaf, place ≠ [] → leaf.isLeaf → raw.find? place = some leaf →
      mapper.HasOrigin values place leaf := by
  have hready : Ready .simple mapper.fields := hsimple ▸ (ready_of_build hb).2
  have hwrites := create_ok h
  constructor
  · refine Json.object_of_writeAll (fun placement hplacement => ?_) hwrites
    obtain ⟨injection, hi, hmem⟩ := List.mem_flatMap.mp hplacement
    obtain ⟨i, hpath⟩ := Plan.exists_pathAt_of_mem_placements hmem
    have hnil := plan_ne_nil_of_mem_injections hready hi
    rw [hpath, Plan.pathAt]
    exact fun hmap => hnil (List.map_eq_nil_iff.mp hmap)
  · intro place leaf hplace hleaf hfound
    obtain ⟨placement, hplacement, below, htexts, hbelow⟩ | hempty :=
      Json.leaf_of_writeAll hleaf hwrites hfound
    · obtain ⟨injection, hi, hmem⟩ := List.mem_flatMap.mp hplacement
      obtain ⟨name, deltas, field, property, plan, hvalues, hf, hp, hplan, rfl⟩ :=
        mem_injections.mp hi
      exact ⟨name, deltas, field, property, plan, hvalues, hf, hp, hplan,
        Plan.leaf_of_mem_placements hmem hleaf htexts hbelow⟩
    · rw [find?_object_nil hplace] at hempty
      cases hempty

/-- Labels and addresses of rows in two halls, and the name of one file. -/
def festivalRaw : Json :=
  .object [
    ("halls", .list [
      .object [("rows", .list [.object [("label", .null), ("href", .list [.null])]])],
      .object [("rows", .object [("1",
        .object [("label", .object []), ("href", .string "row")])])]]),
    ("media", .object [("3",
      .object [("files", .list [.object [("name", .list [.string "a"])]])])])]

/-- The null below the address of the first row is one of a given value. -/
theorem create_leaves_festival :
    festivalMapper.create festivalValues = .ok festivalRaw ∧
    festivalRaw.find? [.key "halls", .index 0, .key "rows", .index 0, .key "href", .index 0] =
      some .null ∧
    festivalMapper.HasOrigin festivalValues
      [.key "halls", .index 0, .key "rows", .index 0, .key "href", .index 0] .null :=
  ⟨rfl, rfl, (create_leaves build_festival rfl rfl).2 _ _ (List.cons_ne_nil _ _) rfl
    (show festivalRaw.find? _ = _ from rfl)⟩

end Mapper

end RecordMapping

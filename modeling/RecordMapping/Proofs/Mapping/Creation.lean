import Mathlib.Data.List.Induction
import RecordMapping.Proofs.Mapping.Extraction
import RecordMapping.Proofs.Plan.Places

/-!
# What creation writes

Creation is a sequence of writes: for every field in name order and every mapped property the values
of the deltas that hold the property, at the places of its plan. The places are counted along these
values, so a value lands at the position of its delta only where no delta before it lacks the
property.
-/

namespace RecordMapping

/-- Values that are written through a plan. -/
structure Injection where
  plan : Plan
  values : List Json
  cardinality : Cardinality

namespace Injection

def placements (injection : Injection) : List Placement :=
  injection.plan.placements injection.values injection.cardinality

end Injection

namespace Mapper

/-- The values that deltas give to a property; deltas without it are skipped. -/
def given (name : String) (deltas : List Delta) : List Json :=
  deltas.filterMap (Dictionary.find? name)

/-- What the deltas of a field give to its path-mapped properties. -/
def injectionsOf (cardinality : Cardinality) (deltas : List Delta) (mapped : List MappedProperty) :
    List Injection :=
  mapped.filterMap fun property => property.plan?.map fun plan =>
    ⟨plan, given property.name deltas, cardinality⟩

/-- What entity values give to all path-mapped properties, in the order in which it is written. -/
def injections (mapper : Mapper) (values : EntityValues) : List Injection :=
  values.entries.flatMap fun entry =>
    match mapper.field? entry.1 with
    | some field => injectionsOf field.definition.cardinality entry.2 field.mapped
    | none => []

lemma writeProperties_ok {cardinality : Cardinality} {deltas : List Delta}
    {mapped : List MappedProperty} {document result : Json}
    (h : writeProperties cardinality deltas mapped document = .ok result) :
    Json.writeAll ((injectionsOf cardinality deltas mapped).flatMap Injection.placements) document =
      .ok result := by
  induction mapped generalizing document with
  | nil => simpa [writeProperties, injectionsOf] using h
  | cons property rest ih =>
    unfold writeProperties at h
    simp only [injectionsOf, List.filterMap_cons, MappedProperty.plan?] at ih ⊢
    cases he : property.expression? with
    | none =>
      simp only [he] at h
      exact ih h
    | some expression =>
      simp only [he, Option.bind_some] at h ⊢
      split at h
      · rename_i hempty
        have hgiven : given property.name deltas = [] := List.isEmpty_iff.mp hempty
        cases expression.plan? with
        | none => exact ih h
        | some plan =>
          simpa [Injection.placements, hgiven, Plan.placements_nil] using ih h
      · cases hp : expression.plan? with
        | none => simp [Expression.inject, hp] at h
        | some plan =>
          simp only [Expression.inject, hp, Plan.inject_eq_writeAll] at h
          split at h
          · rename_i between hbetween
            split at hbetween
            · rename_i written hwritten
              obtain rfl := Except.ok.inj hbetween
              exact Json.writeAll_append_ok.mpr ⟨written, hwritten, ih h⟩
            · cases hbetween
          · cases h

lemma writeFields_ok {mapper : Mapper} {entries : List (String × List Delta)}
    {document result : Json} (h : mapper.writeFields entries document = .ok result) :
    Json.writeAll ((entries.flatMap fun entry =>
      match mapper.field? entry.1 with
      | some field => injectionsOf field.definition.cardinality entry.2 field.mapped
      | none => []).flatMap Injection.placements) document = .ok result := by
  induction entries generalizing document with
  | nil => simpa [writeFields] using h
  | cons entry rest ih =>
    obtain ⟨name, deltas⟩ := entry
    unfold writeFields at h
    rw [List.flatMap_cons, List.flatMap_append]
    cases hf : mapper.field? name with
    | none =>
      simp only [hf] at h ⊢
      exact ih h
    | some field =>
      simp only [hf] at h ⊢
      split at h
      · rename_i between hbetween
        exact Json.writeAll_append_ok.mpr ⟨between, writeProperties_ok hbetween, ih h⟩
      · cases h

theorem create_ok {mapper : Mapper} {values : EntityValues} {raw : Json}
    (h : mapper.create values = .ok raw) :
    Json.writeAll ((mapper.injections values).flatMap Injection.placements) (.object []) =
      .ok raw :=
  writeFields_ok h

lemma mem_injections {mapper : Mapper} {values : EntityValues} {injection : Injection} :
    injection ∈ mapper.injections values ↔
      ∃ name deltas field property plan, values.find? name = some deltas ∧
        mapper.field? name = some field ∧ property ∈ field.mapped ∧ property.plan? = some plan ∧
        injection = ⟨plan, given property.name deltas, field.definition.cardinality⟩ := by
  simp only [injections, injectionsOf, List.mem_flatMap]
  constructor
  · rintro ⟨⟨name, deltas⟩, hentry, hmem⟩
    split at hmem
    · rename_i field hfield
      obtain ⟨property, hproperty, hsome⟩ := List.mem_filterMap.mp hmem
      obtain ⟨plan, hplan, rfl⟩ := Option.map_eq_some_iff.mp hsome
      exact ⟨name, deltas, field, property, plan, Dictionary.find?_eq_some_iff.mpr hentry, hfield,
        hproperty, hplan, rfl⟩
    · cases hmem
  · rintro ⟨name, deltas, field, property, plan, hfind, hfield, hproperty, hplan, rfl⟩
    refine ⟨(name, deltas), Dictionary.find?_eq_some_iff.mp hfind, ?_⟩
    simp only [hfield, List.mem_filterMap]
    exact ⟨property, hproperty, by simp [hplan]⟩

lemma find?_object_nil {path : List Step} (h : path ≠ []) :
    Json.find? path (.object []) = none := by
  cases path with
  | nil => exact absurd rfl h
  | cons step rest => rfl

/-- The places of a plan with a wildcard hold the values that were given to it, when every other
injection keeps apart from it or gives the same values through the same plan. -/
theorem find?_create_of_wildcard {mapper : Mapper} {values : EntityValues} {raw : Json}
    (h : mapper.create values = .ok raw) {plan : Plan} (hw : plan.hasWildcard)
    {written : List Json}
    (hin : written = [] ∨
      ∃ injection ∈ mapper.injections values, injection.plan = plan ∧ injection.values = written)
    (hothers : ∀ injection ∈ mapper.injections values,
      Plan.Apart injection.plan plan ∨ injection.plan = plan ∧ injection.values = written)
    (i : Nat) : raw.find? (plan.pathAt i) = written[i]? := by
  have hpath : plan.pathAt i ≠ [] := by
    obtain ⟨before, rest, rfl⟩ := Plan.exists_eq_append_wildcard hw
    simp
  rw [Plan.find?_pathAt_writeAll hw (create_ok h) ?_ ?_ i, find?_object_nil hpath, Option.or_none]
  · intro j value hvalue
    rcases hin with rfl | ⟨injection, hmem, rfl, rfl⟩
    · simp at hvalue
    · exact List.mem_flatMap.mpr ⟨injection, hmem,
        (Plan.mem_placements_of_wildcard hw).mpr ⟨j, value, hvalue, rfl⟩⟩
  · intro placement hplacement
    obtain ⟨injection, hmem, hp⟩ := List.mem_flatMap.mp hplacement
    rcases hothers injection hmem with hd | ⟨rfl, rfl⟩
    · obtain ⟨j, hj⟩ := Plan.exists_pathAt_of_mem_placements hp
      exact Or.inr fun k => hj ▸ hd j k
    · exact Or.inl ((Plan.mem_placements_of_wildcard hw).mp hp)

lemma getElem?_filterMap_eq_some_iff {α β : Type} {f : α → Option β} {items : List α}
    {place : Nat} {b : β} :
    (items.filterMap f)[place]? = some b ↔
      ∃ j, items[j]?.bind f = some b ∧ ((items.take j).countP fun a => (f a).isSome) = place := by
  induction items generalizing place with
  | nil => simp
  | cons a items ih =>
    rw [← Nat.or_exists_add_one]
    cases ha : f a with
    | none => simp [ha, ih]
    | some c =>
      cases place with
      | zero => simp [ha]
      | succ place => simp [ha, ih]

/-- The number of deltas before a position that hold a property. -/
def carriersBefore (name : String) (deltas : List Delta) (position : Nat) : Nat :=
  (deltas.take position).countP fun delta => (delta.find? name).isSome

lemma length_given (name : String) (deltas : List Delta) :
    (given name deltas).length = deltas.countP fun delta => (delta.find? name).isSome :=
  List.length_filterMap_eq_countP

lemma getElem?_given {name : String} {deltas : List Delta} {i : Nat} {delta : Delta} {value : Json}
    (hi : deltas[i]? = some delta) (hv : delta.find? name = some value) :
    (given name deltas)[carriersBefore name deltas i]? = some value :=
  getElem?_filterMap_eq_some_iff.mpr ⟨i, by rw [hi, Option.bind_some, hv], rfl⟩

lemma carriersBefore_eq_self {name : String} {deltas : List Delta} {i : Nat}
    (hi : i ≤ deltas.length) (h : ∀ delta ∈ deltas.take i, (delta.find? name).isSome) :
    carriersBefore name deltas i = i := by
  rw [carriersBefore, List.countP_eq_length.mpr h, List.length_take_of_le hi]

/-- Deltas that hold a property come before those that lack it. -/
def CarriersFirst (name : String) (deltas : List Delta) : Prop :=
  deltas.Pairwise fun earlier later => (later.find? name).isSome → (earlier.find? name).isSome

/-- Where the position of every delta with a property is below their number, none of them comes
after a delta without it. -/
lemma carriersFirst_of_lt_count {name : String} {deltas : List Delta}
    (h : ∀ (i : Nat) (delta : Delta), deltas[i]? = some delta → (delta.find? name).isSome →
      i < deltas.countP fun delta => (delta.find? name).isSome) : CarriersFirst name deltas := by
  induction deltas using List.reverseRecOn with
  | nil => exact List.Pairwise.nil
  | append_singleton deltas last ih =>
    have hlast := h deltas.length last (by simp)
    rw [List.countP_append, List.countP_singleton] at hlast
    cases hv : (last.find? name).isSome with
    | false =>
      refine List.pairwise_append.mpr ⟨ih ?_, List.pairwise_singleton _ _, by simp [hv]⟩
      · intro i delta hi hsome
        have hlt := (List.getElem?_eq_some_iff.mp hi).1
        have hbound := h i delta (by rw [List.getElem?_append_left hlt, hi]) hsome
        simpa [List.countP_append, hv] using hbound
    | true =>
      have hle : deltas.countP (fun delta => (delta.find? name).isSome) ≤ deltas.length :=
        List.countP_le_length
      have hbound := hlast hv
      rw [hv, if_pos rfl] at hbound
      have hall : ∀ delta ∈ deltas, (delta.find? name).isSome :=
        List.countP_eq_length.mp (by omega)
      refine List.pairwise_append.mpr ⟨?_, List.pairwise_singleton _ _, fun a ha _ _ _ => hall a ha⟩
      exact List.pairwise_of_forall_mem_list fun a ha _ _ _ => hall a ha

lemma CarriersFirst.carriersBefore_eq {name : String} {deltas : List Delta}
    (h : CarriersFirst name deltas) {i : Nat} {delta : Delta} (hi : deltas[i]? = some delta)
    (hv : (delta.find? name).isSome) : carriersBefore name deltas i = i := by
  obtain ⟨hlt, rfl⟩ := List.getElem?_eq_some_iff.mp hi
  refine carriersBefore_eq_self (Nat.le_of_lt hlt) fun earlier hmem => ?_
  obtain ⟨j, hj, rfl⟩ := List.mem_take_iff_getElem.mp hmem
  exact List.pairwise_iff_getElem.mp h j i (by omega) hlt (by omega) hv

theorem getElem?_given_self_iff {name : String} {deltas : List Delta} :
    (∀ (i : Nat) (delta : Delta) (value : Json), deltas[i]? = some delta →
      delta.find? name = some value → (given name deltas)[i]? = some value) ↔
    CarriersFirst name deltas := by
  constructor
  · intro h
    refine carriersFirst_of_lt_count fun i delta hi hsome => ?_
    obtain ⟨value, hvalue⟩ := Option.isSome_iff_exists.mp hsome
    rw [← length_given]
    exact (List.getElem?_eq_some_iff.mp (h i delta value hi hvalue)).1
  · intro h i delta value hi hv
    have hplace := getElem?_given hi hv
    rwa [h.carriersBefore_eq hi (by rw [hv]; rfl)] at hplace

/-- For a field whose plans keep apart, the value of a delta is at the place counted by the deltas
before it that hold the property. This is the position of the delta for all values together exactly
when no delta with the property comes after one without it. -/
theorem create_counts_carriers {entityType : String} {config : MapperConfig} {schema : Schema}
    {catalog : Catalog} {mapper : Mapper} (hb : build entityType config schema catalog = .ok mapper)
    {name : String} {field : MappedField} (hf : mapper.field? name = some field)
    (hapart : ∀ p ∈ field.mapped, ∀ q ∈ field.mapped, p.name ≠ q.name → ∀ planP planQ,
      p.plan? = some planP → q.plan? = some planQ → Plan.Apart planP planQ)
    {property : MappedProperty} (hp : property ∈ field.mapped) {plan : Plan}
    (hplan : property.plan? = some plan) (hw : plan.hasWildcard) {deltas : List Delta} {raw : Json}
    (hraw : mapper.create (Dictionary.empty.insert name deltas) = .ok raw) :
    (∀ (i : Nat) (delta : Delta) (value : Json), deltas[i]? = some delta →
      delta.find? property.name = some value →
      raw.find? (plan.pathAt (carriersBefore property.name deltas i)) = some value) ∧
    ((∀ (i : Nat) (delta : Delta) (value : Json), deltas[i]? = some delta →
      delta.find? property.name = some value → raw.find? (plan.pathAt i) = some value) ↔
      CarriersFirst property.name deltas) := by
  have hc := (ready_of_build hb).2.compiled field (mem_of_field? hf).1
  have hsingle : ∀ name' deltas', (Dictionary.empty.insert name deltas).find? name' = some deltas' →
      name' = name ∧ deltas' = deltas := by
    intro name' deltas' hfind
    rw [Dictionary.find?_insert] at hfind
    split at hfind
    · rename_i hname
      exact ⟨hname, (Option.some.inj hfind).symm⟩
    · cases hfind
  have hplaces : ∀ i : Nat, raw.find? (plan.pathAt i) = (given property.name deltas)[i]? := by
    refine find?_create_of_wildcard hraw hw (Or.inr ⟨_, mem_injections.mpr ⟨name, deltas, field,
      property, plan, by simp, hf, hp, hplan, rfl⟩, rfl, rfl⟩) fun injection hinjection => ?_
    obtain ⟨name', deltas', field', q, planQ, hfind, hfield, hq, hplanQ, rfl⟩ :=
      mem_injections.mp hinjection
    obtain ⟨rfl, rfl⟩ := hsingle name' deltas' hfind
    obtain rfl := Option.some.inj (hfield.symm.trans hf)
    by_cases hname : q.name = property.name
    · have hsame : q = property :=
        Option.some.inj ((hc.mapped?_eq hq).symm.trans (hname ▸ hc.mapped?_eq hp))
      subst hsame
      exact Or.inr ⟨Option.some.inj (hplanQ.symm.trans hplan), rfl⟩
    · exact Or.inl (hapart q hq property hp hname planQ plan hplanQ hplan)
  simp only [hplaces]
  exact ⟨fun i delta value hi hv => getElem?_given hi hv, getElem?_given_self_iff⟩

lemma plan?_movie {field : MappedField} (hf : field ∈ movieMapper.fields)
    {property : MappedProperty} (hp : property ∈ field.mapped) {plan : Plan}
    (hplan : property.plan? = some plan) :
    field = movieLinks ∧ (property = linkTitle ∧ plan = linkPlan "label" ∨
      property = linkUri ∧ plan = linkPlan "href") := by
  simp only [movieMapper, List.mem_cons, List.not_mem_nil, or_false] at hf
  rcases hf with rfl | rfl
  · simp only [movieLinks, List.mem_cons, List.not_mem_nil, or_false] at hp
    rcases hp with rfl | rfl
    · exact ⟨rfl, Or.inl ⟨rfl, (Option.some.inj hplan).symm⟩⟩
    · exact ⟨rfl, Or.inr ⟨rfl, (Option.some.inj hplan).symm⟩⟩
  · obtain rfl := List.mem_singleton.mp hp
    cases hplan

lemma linkPlan_diverge : Plan.Diverge (linkPlan "label") (linkPlan "href") :=
  ⟨[.step (.key "links"), .wildcard], .step (.key "label"), .step (.key "href"), [], [], rfl, rfl,
    .key "label", .key "href", rfl, rfl, by simp [Step.Differs, Step.text]⟩

lemma diverge_movie {f g : MappedField} (hf : f ∈ movieMapper.fields)
    (hg : g ∈ movieMapper.fields) {p q : MappedProperty} (hp : p ∈ f.mapped) (hq : q ∈ g.mapped)
    {planP planQ : Plan} (hplanP : p.plan? = some planP) (hplanQ : q.plan? = some planQ) :
    Plan.Diverge planP planQ ∨ planP = planQ ∧ f = g ∧ p = q := by
  obtain ⟨rfl, ⟨rfl, rfl⟩ | ⟨rfl, rfl⟩⟩ := plan?_movie hf hp hplanP
  · obtain ⟨rfl, ⟨rfl, rfl⟩ | ⟨rfl, rfl⟩⟩ := plan?_movie hg hq hplanQ
    · exact Or.inr ⟨rfl, rfl, rfl⟩
    · exact Or.inl linkPlan_diverge
  · obtain ⟨rfl, ⟨rfl, rfl⟩ | ⟨rfl, rfl⟩⟩ := plan?_movie hg hq hplanQ
    · exact Or.inl linkPlan_diverge.symm
    · exact Or.inr ⟨rfl, rfl, rfl⟩

/-- Two links, the first without an address. -/
def sparseLinks : List Delta := [Dictionary.empty.insert "title" (.string "A"),
  (Dictionary.empty.insert "title" (.string "B")).insert "uri" (.string "https://b")]

/-- The address of the second link is written into the first. -/
theorem create_counts_carriers_movie :
    ∃ raw, movieMapper.create (Dictionary.empty.insert "links" sparseLinks) = .ok raw ∧
      raw.find? ((linkPlan "href").pathAt 0) = some (.string "https://b") ∧
      ¬∀ (i : Nat) (delta : Delta) (value : Json), sparseLinks[i]? = some delta →
        delta.find? "uri" = some value → raw.find? ((linkPlan "href").pathAt i) = some value := by
  have hlinks : movieLinks ∈ movieMapper.fields := (mem_of_field? field?_links).1
  have hapart : ∀ p ∈ movieLinks.mapped, ∀ q ∈ movieLinks.mapped, p.name ≠ q.name →
      ∀ planP planQ, p.plan? = some planP → q.plan? = some planQ → Plan.Apart planP planQ := by
    intro p hp q hq hname planP planQ hplanP hplanQ
    rcases diverge_movie hlinks hlinks hp hq hplanP hplanQ with h | ⟨-, -, rfl⟩
    · exact h.apart
    · exact absurd rfl hname
  have huri : linkUri ∈ movieLinks.mapped := List.mem_cons_of_mem _ List.mem_cons_self
  have hcreate : movieMapper.create (Dictionary.empty.insert "links" sparseLinks) =
      .ok (.object [("links", .list
        [.object [("label", .string "A"), ("href", .string "https://b")],
          .object [("label", .string "B")]])]) := rfl
  have hcounts := create_counts_carriers build_movie field?_links hapart huri rfl rfl hcreate
  refine ⟨_, hcreate, hcounts.1 1 _ _ rfl rfl, fun hall => ?_⟩
  have hfirst : CarriersFirst "uri" sparseLinks := hcounts.2.mp hall
  simp [CarriersFirst, sparseLinks, Dictionary.find?_insert] at hfirst

end Mapper

end RecordMapping

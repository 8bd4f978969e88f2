import RecordMapping.Proofs.Mapping.Creation
import RecordMapping.Proofs.Plan.ReadBack
import RecordMapping.Proofs.Plan.Turns

/-!
# Creation without conflicts

A mapper of slash-separated expressions whose plans part by name writes whatever it is given. Its
injections go into one document in the order of the field names, and the places of each come in turn
after all that was written before.
-/

namespace RecordMapping

lemma Unblocked.injections {injections : List Injection}
    (hne : ∀ injection ∈ injections, injection.plan ≠ [])
    (hpart : injections.Pairwise fun a b => Plan.PartByName a.plan b.plan) :
    Unblocked (injections.flatMap Injection.placements) := by
  induction injections using List.reverseRecOn with
  | nil => exact Unblocked.nil
  | append_singleton injections last ih =>
    obtain ⟨hearlier, -, hlast⟩ := List.pairwise_append.mp hpart
    have hunblocked := ih (fun injection hi => hne injection (by simp [hi])) hearlier
    rw [List.flatMap_append, List.flatMap_singleton]
    refine Plan.unblocked_placements (hne last (by simp)) hunblocked ?_ last.values
      last.cardinality
    intro placement hmem
    obtain ⟨injection, hi, hplacement⟩ := List.mem_flatMap.mp hmem
    obtain ⟨j, hplace⟩ := Plan.exists_pathAt_of_mem_placements hplacement
    exact ⟨injection.plan, j, hplace, hlast injection hi last (by simp)⟩

namespace Mapper

/-- Every path-mapped property can be written. -/
def Writable (mapped : List MappedProperty) : Prop :=
  ∀ property ∈ mapped, ∀ expression, property.expression? = some expression →
    ∃ plan, expression.plan? = some plan ∧ plan ≠ []

lemma Compiled.writable {mapped : List MappedProperty} (h : Compiled .simple mapped) :
    Writable mapped := by
  intro property hp expression he
  obtain ⟨source, hparse⟩ := h.parsed property hp expression he
  obtain ⟨path, -, rfl⟩ := Expression.parse_simple hparse
  exact ⟨path.plan, rfl, Expression.plan_ne_nil hparse rfl⟩

lemma writeProperties_of_writeAll {cardinality : Cardinality} {deltas : List Delta}
    {mapped : List MappedProperty} (hw : Writable mapped) {document result : Json}
    (h : Json.writeAll ((injectionsOf cardinality deltas mapped).flatMap Injection.placements)
      document = .ok result) :
    writeProperties cardinality deltas mapped document = .ok result := by
  induction mapped generalizing document with
  | nil => simpa [writeProperties, injectionsOf] using h
  | cons property rest ih =>
    have hrest : Writable rest := fun p hp => hw p (by simp [hp])
    unfold writeProperties
    simp only [injectionsOf, List.filterMap_cons, MappedProperty.plan?] at ih h
    cases he : property.expression? with
    | none =>
      simp only [he] at h
      exact ih hrest h
    | some expression =>
      obtain ⟨plan, hplan, -⟩ := hw property (by simp) expression he
      simp only [he, Option.bind_some, hplan, Option.map_some, List.flatMap_cons] at h
      obtain ⟨between, hfirst, hlater⟩ := Json.writeAll_append_ok.mp h
      have hgiven : given property.name deltas =
          deltas.filterMap (Dictionary.find? property.name) := rfl
      simp only [Injection.placements, hgiven] at hfirst
      simp only [Expression.inject, hplan, Plan.inject_eq_writeAll, hfirst, ih hrest hlater]
      split
      · rename_i hempty
        rw [List.isEmpty_iff.mp hempty, Plan.placements_nil] at hfirst
        obtain rfl := Except.ok.inj hfirst
        exact ih hrest hlater
      · rfl

lemma writeFields_of_writeAll {mapper : Mapper}
    (hw : ∀ field ∈ mapper.fields, Writable field.mapped)
    {entries : List (String × List Delta)} {document result : Json}
    (h : Json.writeAll ((entries.flatMap fun entry =>
      match mapper.field? entry.1 with
      | some field => injectionsOf field.definition.cardinality entry.2 field.mapped
      | none => []).flatMap Injection.placements) document = .ok result) :
    mapper.writeFields entries document = .ok result := by
  induction entries generalizing document with
  | nil => simpa [writeFields] using h
  | cons entry rest ih =>
    obtain ⟨name, deltas⟩ := entry
    unfold writeFields
    rw [List.flatMap_cons, List.flatMap_append] at h
    obtain ⟨between, hfirst, hlater⟩ := Json.writeAll_append_ok.mp h
    cases hf : mapper.field? name with
    | none =>
      simp only [hf] at hfirst
      obtain rfl := Except.ok.inj hfirst
      exact ih hlater
    | some field =>
      simp only [hf] at hfirst
      have hwritable := hw field (mem_of_field? hf).1
      simp only [writeProperties_of_writeAll hwritable hfirst, ih hlater]

theorem create_of_writeAll {mapper : Mapper}
    (hw : ∀ field ∈ mapper.fields, Writable field.mapped) {values : EntityValues} {raw : Json}
    (h : Json.writeAll ((mapper.injections values).flatMap Injection.placements) (.object []) =
      .ok raw) : mapper.create values = .ok raw :=
  writeFields_of_writeAll hw h

/-- The plans of different properties part by name. -/
def PlansPart (mapper : Mapper) : Prop :=
  ∀ f ∈ mapper.fields, ∀ p ∈ f.mapped, ∀ g ∈ mapper.fields, ∀ q ∈ g.mapped,
    f.definition.name ≠ g.definition.name ∨ p.name ≠ q.name →
    ∀ planP ∈ p.plan?, ∀ planQ ∈ q.plan?, Plan.PartByName planP planQ

instance (mapper : Mapper) : Decidable mapper.PlansPart := by
  unfold PlansPart
  infer_instance

lemma PlansPart.pairwise_injections {dialect : Dialect} {mapper : Mapper} (h : mapper.PlansPart)
    (hr : Ready dialect mapper.fields) (values : EntityValues) :
    (mapper.injections values).Pairwise fun a b => Plan.PartByName a.plan b.plan := by
  refine List.pairwise_flatMap.mpr ⟨fun entry hentry => ?_, ?_⟩
  · cases hf : mapper.field? entry.1 with
    | none => exact List.Pairwise.nil
    | some field =>
      have hfield := (mem_of_field? hf).1
      refine List.pairwise_filterMap.mpr ?_
      refine (hr.compiled field hfield).sorted.imp_of_mem fun {p q} hp hq hlt a ha b hb => ?_
      obtain ⟨planP, hplanP, rfl⟩ := Option.map_eq_some_iff.mp ha
      obtain ⟨planQ, hplanQ, rfl⟩ := Option.map_eq_some_iff.mp hb
      have hne : p.name ≠ q.name := fun he => String.lt_irrefl _ (he ▸ hlt)
      exact h field hfield p hp field hfield q hq (Or.inr hne) planP hplanP planQ hplanQ
  · refine values.sorted.imp fun {first later} hlt a ha b hb => ?_
    split at ha
    · rename_i f hf
      split at hb
      · rename_i g hg
        obtain ⟨p, hp, hmapP⟩ := List.mem_filterMap.mp ha
        obtain ⟨q, hq, hmapQ⟩ := List.mem_filterMap.mp hb
        obtain ⟨planP, hplanP, rfl⟩ := Option.map_eq_some_iff.mp hmapP
        obtain ⟨planQ, hplanQ, rfl⟩ := Option.map_eq_some_iff.mp hmapQ
        obtain ⟨hfmem, hfname⟩ := mem_of_field? hf
        obtain ⟨hgmem, hgname⟩ := mem_of_field? hg
        have hne : f.definition.name ≠ g.definition.name := fun he => by
          rw [hfname, hgname] at he
          exact String.lt_irrefl _ (he ▸ hlt)
        exact h f hfmem p hp g hgmem q hq (Or.inl hne) planP hplanP planQ hplanQ
      · cases hb
    · cases ha

/-- A mapper of slash-separated expressions whose plans part by name creates a document from every
values. -/
theorem exists_create_of_plansPart {entityType : String} {config : MapperConfig} {schema : Schema}
    {catalog : Catalog} {mapper : Mapper} (hb : build entityType config schema catalog = .ok mapper)
    (hsimple : config.dialect = .simple) (hpart : mapper.PlansPart) (values : EntityValues) :
    ∃ raw, mapper.create values = .ok raw := by
  have hready : Ready .simple mapper.fields := hsimple ▸ (ready_of_build hb).2
  have hwritable : ∀ field ∈ mapper.fields, Writable field.mapped :=
    fun field hf => (hready.compiled field hf).writable
  have hne : ∀ injection ∈ mapper.injections values, injection.plan ≠ [] := by
    intro injection hi
    obtain ⟨name, deltas, field, property, plan, -, hf, hp, hplan, rfl⟩ := mem_injections.mp hi
    obtain ⟨expression, he, hexpression⟩ := Option.bind_eq_some_iff.mp hplan
    obtain ⟨plan', hplan', hnil⟩ := hwritable field (mem_of_field? hf).1 property hp expression he
    obtain rfl := Option.some.inj (hexpression.symm.trans hplan')
    exact hnil
  obtain ⟨raw, hraw⟩ :=
    (Unblocked.injections hne (hpart.pairwise_injections hready values)).succeeds
  exact ⟨raw, create_of_writeAll hwritable hraw⟩

section Festival

def rowPlan (member : String) : Plan :=
  [.step (.key "halls"), .wildcard, .step (.key "rows"), .wildcard, .step (.key member)]

/-- The plan of one member of the first file of a numbered medium. -/
def filePlan (member : String) : Plan :=
  [.step (.key "media"), .step (.index 3), .step (.key "files"), .step (.index 0),
    .step (.key member)]

def festivalSchema : Schema :=
  ⟨[("festival", [{ FieldDefinition.base "links" "Links" .link with cardinality := .unlimited },
    .base "poster" "Poster" .link])], by decide⟩

/-- Links are given for the rows of halls, and a poster is one file. -/
def festivalConfig : MapperConfig where
  dialect := .simple
  constantMark := none
  mappings := ⟨[("links", ⟨[("title", "halls/*/rows/*/label"), ("uri", "halls/*/rows/*/href")],
      by decide⟩),
    ("poster", ⟨[("title", "media/3/files/0/name"), ("uri", "media/3/files/0/place")],
      by decide⟩)], by decide⟩

def festivalMapper : Mapper where
  entityType := "festival"
  dialect := .simple
  constantMark := none
  mappings := festivalConfig.mappings
  fields := [
    ⟨{ FieldDefinition.base "links" "Links" .link with cardinality := .unlimited },
      [.plain "uri" "uri", .plain "title" "string"],
      [⟨"title", .primitive .string, .path (.slashed ⟨"halls/*/rows/*/label", rowPlan "label"⟩)⟩,
        ⟨"uri", .primitive .uri, .path (.slashed ⟨"halls/*/rows/*/href", rowPlan "href"⟩)⟩]⟩,
    ⟨.base "poster" "Poster" .link, [.plain "uri" "uri", .plain "title" "string"],
      [⟨"title", .primitive .string, .path (.slashed ⟨"media/3/files/0/name", filePlan "name"⟩)⟩,
        ⟨"uri", .primitive .uri, .path (.slashed ⟨"media/3/files/0/place", filePlan "place"⟩)⟩]⟩]

lemma build_festival :
    build "festival" festivalConfig festivalSchema Catalog.standard = .ok festivalMapper := rfl

lemma plansPart_festival : festivalMapper.PlansPart := by decide

/-- Links with gaps, containers as values, and a field that is not mapped. -/
def festivalValues : EntityValues :=
  Dictionary.ofList [
    ("links", [Dictionary.empty.insert "title" .null, Dictionary.empty,
      (Dictionary.empty.insert "title" (.object [])).insert "uri" (.list [.null]),
      Dictionary.empty.insert "uri" (.string "row")]),
    ("poster", [Dictionary.empty.insert "title" (.list [.string "a"])]),
    ("guests", [Dictionary.empty.insert "value" (.bool true)])]

theorem exists_create_festival :
    festivalMapper.PlansPart ∧ ∃ raw, festivalMapper.create festivalValues = .ok raw :=
  ⟨plansPart_festival,
    exists_create_of_plansPart build_festival rfl plansPart_festival festivalValues⟩

end Festival

end Mapper

end RecordMapping

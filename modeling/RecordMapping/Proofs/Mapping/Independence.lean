import RecordMapping.Proofs.Mapping.Acceptance
import RecordMapping.Proofs.Mapping.Creation

/-!
# What creation depends on

Creation is a run of injections, one for each path-mapped property that deltas of its field hold.
Fields and deltas without such a property add nothing to the run, and neither do constants, so they
leave no trace in the document, in the order of its members or in an error. Main statement: entity
values that agree on everything a configuration maps to a path create the same document or fail in
the same way.
-/

namespace RecordMapping

/-- Values that creation injects through an expression. -/
structure Writing where
  expression : Expression
  cardinality : Cardinality
  values : List Json

namespace Writing

def apply (raw : Json) (writing : Writing) : Except InjectError Json :=
  writing.expression.inject writing.values writing.cardinality raw

end Writing

namespace Mapper

section Writings

variable {cardinality : Cardinality} {deltas others : List Delta} {mapped : List MappedProperty}

/-- The injections for the path-mapped properties that deltas hold. -/
def propertyWritings (cardinality : Cardinality) (deltas : List Delta)
    (mapped : List MappedProperty) : List Writing :=
  mapped.filterMap fun property => property.expression?.bind fun expression =>
    if (given property.name deltas).isEmpty then none
    else some ⟨expression, cardinality, given property.name deltas⟩

def fieldWritings (mapper : Mapper) (name : String) (deltas : List Delta) : List Writing :=
  match mapper.field? name with
  | none => []
  | some field => propertyWritings field.definition.cardinality deltas field.mapped

/-- All injections for entity values, in the order in which they are made. -/
def writings (mapper : Mapper) (values : EntityValues) : List Writing :=
  (Dictionary.map mapper.fieldWritings values).entries.flatMap Prod.snd

lemma writeProperties_eq_foldlM (cardinality : Cardinality) (deltas : List Delta)
    (mapped : List MappedProperty) (raw : Json) :
    writeProperties cardinality deltas mapped raw =
      (propertyWritings cardinality deltas mapped).foldlM Writing.apply raw := by
  induction mapped generalizing raw with
  | nil => rfl
  | cons property rest ih =>
    unfold writeProperties propertyWritings
    rw [List.filterMap_cons]
    cases property.expression? with
    | none => exact ih raw
    | some expression =>
      have hgiven : deltas.filterMap (Dictionary.find? property.name) =
          given property.name deltas := rfl
      dsimp only
      rw [hgiven, Option.bind_some]
      by_cases hempty : (given property.name deltas).isEmpty
      · rw [if_pos hempty, if_pos hempty]
        exact ih raw
      · rw [if_neg hempty, if_neg hempty, List.foldlM_cons, Writing.apply]
        cases expression.inject (given property.name deltas) cardinality raw with
        | error error => rfl
        | ok written => exact ih written

lemma writeFields_eq_foldlM (mapper : Mapper) (entries : List (String × List Delta)) (raw : Json) :
    mapper.writeFields entries raw =
      (entries.flatMap fun entry => mapper.fieldWritings entry.1 entry.2).foldlM
        Writing.apply raw := by
  induction entries generalizing raw with
  | nil => rfl
  | cons entry rest ih =>
    obtain ⟨name, deltas⟩ := entry
    unfold writeFields
    rw [List.flatMap_cons, List.foldlM_append, fieldWritings]
    cases mapper.field? name with
    | none => exact ih raw
    | some field =>
      simp only [writeProperties_eq_foldlM]
      cases (propertyWritings field.definition.cardinality deltas field.mapped).foldlM
          Writing.apply raw with
      | error error => rfl
      | ok written => exact ih written

theorem create_eq_foldlM (mapper : Mapper) (values : EntityValues) :
    mapper.create values = (mapper.writings values).foldlM Writing.apply (.object []) := by
  rw [create, writeFields_eq_foldlM, writings, Dictionary.map, List.flatMap_map]

/-- Deltas hold the same under every name that is read, position by position. -/
def DeltasAgree (read : String → Prop) (deltas others : List Delta) : Prop :=
  List.Forall₂ (fun delta other => ∀ name, read name → delta.find? name = other.find? name)
    deltas others

lemma DeltasAgree.given_eq {read : String → Prop} (h : DeltasAgree read deltas others)
    {name : String} (hname : read name) : given name deltas = given name others := by
  induction h with
  | nil => rfl
  | cons hdelta _ ih =>
    rw [given, given] at ih ⊢
    rw [List.filterMap_cons, List.filterMap_cons, hdelta name hname, ih]

lemma DeltasAgree.propertyWritings_eq {read : String → Prop} (h : DeltasAgree read deltas others)
    (hread : ∀ property ∈ mapped, ∀ expression, property.expression? = some expression →
      read property.name) (cardinality : Cardinality) :
    propertyWritings cardinality deltas mapped = propertyWritings cardinality others mapped := by
  apply List.filterMap_congr
  intro property hproperty
  cases hexpression : property.expression? with
  | none => rfl
  | some expression => rw [h.given_eq (hread property hproperty expression hexpression)]

lemma fieldWritings_nil (mapper : Mapper) (name : String) : mapper.fieldWritings name [] = [] := by
  unfold fieldWritings
  cases mapper.field? name with
  | none => rfl
  | some field =>
    apply List.filterMap_eq_nil_iff.mpr
    intro property _
    rw [Option.bind_eq_none_iff]
    exact fun expression _ => rfl

lemma getD_map_fieldWritings (mapper : Mapper) (name : String) (found : Option (List Delta)) :
    (found.map (mapper.fieldWritings name)).getD [] =
      mapper.fieldWritings name (found.getD []) := by
  cases found with
  | none => exact (fieldWritings_nil mapper name).symm
  | some deltas => rfl

end Writings

section Built

variable {entityType : String} {config : MapperConfig} {schema : Schema} {catalog : Catalog}
  {definitions : List FieldDefinition} {mapper : Mapper}

/-- Whether a configuration maps a property of a field to a path: its mapping is used and is no
constant. -/
def MapsToPath (catalog : Catalog) (config : MapperConfig) (definitions : List FieldDefinition)
    (field property : String) : Prop :=
  ∃ m ∈ config.written, m.field = field ∧ m.property = property ∧ Used catalog definitions m ∧
    ∀ text, ¬ config.Constant m.expression text

/-- Entity values that agree on what a configuration maps to paths. A field that is missing is one
without deltas. -/
def Agree (catalog : Catalog) (config : MapperConfig) (definitions : List FieldDefinition)
    (values others : EntityValues) : Prop :=
  ∀ definition ∈ definitions, CanBeMapped definition →
    DeltasAgree (MapsToPath catalog config definitions definition.name)
      ((values.find? definition.name).getD []) ((others.find? definition.name).getD [])

lemma definition_of_field? (hschema : schema.find? entityType = some definitions)
    (h : build entityType config schema catalog = .ok mapper) {name : String} {field : MappedField}
    (hfield : mapper.field? name = some field) :
    field.definition ∈ definitions ∧ CanBeMapped field.definition ∧
      field.definition.name = name := by
  obtain ⟨hmem, hname⟩ := mem_of_field? hfield
  obtain ⟨own, hown, -, hcompile, -⟩ := build_ok h
  obtain rfl := Option.some.inj (hschema.symm.trans hown)
  have hfiltered : field.definition ∈ definitions.filter CanBeMapped := by
    rw [← definitions_mappableFields catalog, ← definitions_compileTable hcompile]
    exact List.mem_map_of_mem hmem
  obtain ⟨hdefinition, hmappable⟩ := List.mem_filter.mp hfiltered
  exact ⟨hdefinition, of_decide_eq_true hmappable, hname⟩

lemma exists_mem_of_forall₂ {α β : Type} {R : α → β → Prop} {items : List α} {results : List β}
    (h : List.Forall₂ R items results) {result : β} (hresult : result ∈ results) :
    ∃ item ∈ items, R item result := by
  induction h with
  | nil => cases hresult
  | cons hrelated _ ih =>
    obtain rfl | hresult := List.mem_cons.mp hresult
    · exact ⟨_, List.mem_cons_self, hrelated⟩
    · obtain ⟨item, hitem, hrelated⟩ := ih hresult
      exact ⟨item, List.mem_cons_of_mem _ hitem, hrelated⟩

lemma mapsToPath_of_mem_mapped (hschema : schema.find? entityType = some definitions)
    (h : build entityType config schema catalog = .ok mapper) {name : String} {field : MappedField}
    (hfield : mapper.field? name = some field) {property : MappedProperty}
    (hproperty : property ∈ field.mapped) {expression : Expression}
    (hexpression : property.expression? = some expression) :
    MapsToPath catalog config definitions name property.name := by
  obtain ⟨hdefinition, hmappable, rfl⟩ := definition_of_field? hschema h hfield
  obtain ⟨hadmitted, hmapped⟩ := compiled_of_field? h hfield
  rw [hadmitted] at hmapped
  rw [build_eq hschema] at h
  split at h
  · cases h
  · split at h
    · cases h
    · obtain rfl := Except.ok.inj h
      obtain ⟨m, hm, hcompiled⟩ := exists_mem_of_forall₂ (forall₂_mapped hmapped) hproperty
      obtain ⟨hwritten, hof⟩ := List.mem_filter.mp hm
      obtain ⟨hname, hadmits⟩ := of_decide_eq_true hof
      obtain ⟨own, hown, hownName⟩ := List.mem_map.mp hadmits
      obtain ⟨hown, hownAdmits⟩ := List.mem_filter.mp hown
      have hsource := hcompiled.source
      rw [MappedProperty.expression?_eq_some_iff.mp hexpression] at hsource
      cases hsource with
      | path hconstant _ =>
        exact ⟨m, hwritten, hname, hcompiled.name.symm,
          ⟨field.definition, hdefinition, hname.symm, hmappable, own, hown, hownName, hownAdmits⟩,
          hconstant⟩

/-- Entity values that agree on what the configuration maps to paths create the same document, with
its members in the same order, or fail with the same error. Constants, properties that are not
mapped or cannot be, unknown and computed fields and the annotation may differ, be added or be left
out. -/
theorem create_eq_of_agree (hschema : schema.find? entityType = some definitions)
    (h : build entityType config schema catalog = .ok mapper) {values others : EntityValues}
    (hagree : Agree catalog config definitions values others) :
    mapper.create values = mapper.create others := by
  have hwritings : mapper.writings values = mapper.writings others := by
    apply Dictionary.flatMap_entries_eq
    intro name
    rw [Dictionary.find?_map, Dictionary.find?_map, getD_map_fieldWritings,
      getD_map_fieldWritings]
    unfold fieldWritings
    cases hfield : mapper.field? name with
    | none => rfl
    | some field =>
      obtain ⟨hdefinition, hmappable, rfl⟩ := definition_of_field? hschema h hfield
      exact (hagree field.definition hdefinition hmappable).propertyWritings_eq
        (fun property hproperty expression => mapsToPath_of_mem_mapped hschema h hfield hproperty)
        field.definition.cardinality
  rw [create_eq_foldlM, create_eq_foldlM, hwritings]

end Built

section Movie

/-- A movie with a link, in its own language. -/
def plainTrailer : EntityValues :=
  ⟨[("language", [⟨[("value", .string "fr")], by decide⟩]),
    ("links", [⟨[("title", .string "Trailer"), ("uri", .string "/trailer")], by decide⟩])],
    by decide⟩

/-- The same link with options, and with other values that have no place in raw data. -/
def adornedTrailer : EntityValues :=
  ⟨[("annotation", [⟨[("target_id", .string "7")], by decide⟩]),
    ("director", [⟨[("value", .string "Varda")], by decide⟩, .empty]),
    ("language", [⟨[("value", .string "en")], by decide⟩]),
    ("links", [⟨[("options", .object []), ("title", .string "Trailer"),
      ("uri", .string "/trailer")], by decide⟩])], by decide⟩

lemma mapsToPath_movie {field property : String}
    (h : MapsToPath Catalog.standard movieConfig movieFields field property) :
    field = "links" ∧ (property = "title" ∨ property = "uri") := by
  obtain ⟨m, hm, rfl, rfl, -, hconstant⟩ := h
  have hwritten : movieConfig.written = [⟨"language", "value", "+en"⟩,
      ⟨"links", "title", "links/*/label"⟩, ⟨"links", "uri", "links/*/href"⟩] := rfl
  simp only [hwritten, List.mem_cons, List.not_mem_nil, or_false] at hm
  obtain rfl | rfl | rfl := hm
  · exact absurd ⟨"+", rfl, by decide, by decide⟩ (hconstant "en")
  · exact ⟨rfl, .inl rfl⟩
  · exact ⟨rfl, .inr rfl⟩

/-- The annotation, an unknown field, the constant language and the options of the link leave no
trace. -/
theorem create_eq_of_agree_movie :
    Agree Catalog.standard movieConfig movieFields plainTrailer adornedTrailer ∧
    movieMapper.create plainTrailer = movieMapper.create adornedTrailer ∧
    movieMapper.create plainTrailer = .ok (.object [("links",
      .list [.object [("label", .string "Trailer"), ("href", .string "/trailer")]])]) := by
  have hagree : Agree Catalog.standard movieConfig movieFields plainTrailer adornedTrailer := by
    intro definition hdefinition _
    simp only [movieFields, List.mem_cons, List.not_mem_nil, or_false] at hdefinition
    obtain rfl | rfl := hdefinition
    · refine .cons (fun name hname => ?_) .nil
      obtain ⟨-, rfl | rfl⟩ := mapsToPath_movie hname
      · rfl
      · rfl
    · refine .cons (fun name hname => ?_) .nil
      exact absurd (mapsToPath_movie hname).1 (by decide)
  exact ⟨hagree, create_eq_of_agree rfl build_movie hagree, rfl⟩

end Movie

end Mapper

end RecordMapping

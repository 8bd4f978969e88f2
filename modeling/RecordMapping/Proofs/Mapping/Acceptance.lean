import RecordMapping.Proofs.Mapping.Faults

/-!
# Which mappers are built

A build reads the mappings that it uses in the order of the field names and the property names, and
only then looks at the required fields, in the order of the schema. Main statement: it fails exactly
with the first expression that cannot be read or, when all can be, with the first required field
that has no expression over raw data, and what it builds otherwise is the table, compiled field by
field.
-/

namespace RecordMapping

namespace Mapper

structure PropertyOf (catalog : Catalog) (config : MapperConfig) (definition : FieldDefinition)
    (m : Mapping) (property : MappedProperty) : Prop where
  name : property.name = m.property
  kind : ∃ own, (definition.properties.filter catalog.admits).find? (·.name == m.property) =
    some own ∧ catalog.find? own.dataType = some property.kind
  source : config.Compiles m.expression property.source

/-- Whether a mapping is for a property of a field that can be mapped. -/
def IsOf (catalog : Catalog) (definition : FieldDefinition) (m : Mapping) : Prop :=
  m.field = definition.name ∧
    m.property ∈ (definition.properties.filter catalog.admits).map PropertyDefinition.name

instance (catalog : Catalog) (definition : FieldDefinition) :
    DecidablePred (IsOf catalog definition) := fun _ => inferInstanceAs (Decidable (_ ∧ _))

/-- A field as it is compiled: with all mappings of its properties that can be mapped, in the order
of their names, and no others. -/
structure FieldOf (catalog : Catalog) (config : MapperConfig) (given : FieldDefinition)
    (field : MappedField) : Prop where
  definition : field.definition = given
  mappable : field.mappable = given.properties.filter catalog.admits
  mapped : List.Forall₂ (PropertyOf catalog config given)
    (config.written.filter (IsOf catalog given)) field.mapped

/-- A mapper as it is compiled: with all fields that can be mapped, in the order of the schema. -/
structure MapperOf (entityType : String) (catalog : Catalog) (config : MapperConfig)
    (definitions : List FieldDefinition) (mapper : Mapper) : Prop where
  entityType : mapper.entityType = entityType
  dialect : mapper.dialect = config.dialect
  mark : ∀ mark, mapper.constantMark = some mark ↔ config.constantMark = some mark ∧ mark ≠ ""
  listed : mapper.mappings.listed = config.written
  filled : ∀ name mappings, mapper.mappings.find? name = some mappings → mappings.isEmpty = false
  fields : List.Forall₂ (FieldOf catalog config) (definitions.filter CanBeMapped) mapper.fields

variable {catalog : Catalog} {config : MapperConfig} {definitions : List FieldDefinition}

lemma forall₂_of_compileEntries {dialect : Dialect} {mark : Option String}
    {mappable : List PropertyDefinition} {entries : List (String × String)}
    {mapped : List MappedProperty}
    (h : compileEntries catalog dialect mark mappable entries = .ok mapped) :
    List.Forall₂ (fun entry property => property.name = entry.1 ∧
        (∃ own, mappable.find? (·.name == entry.1) = some own ∧
          property.kind = (catalog.find? own.dataType).getD .reference) ∧
        compile dialect mark entry.2 = .ok property.source)
      (entries.filter fun entry => entry.1 ∈ mappable.map PropertyDefinition.name) mapped := by
  induction entries generalizing mapped with
  | nil =>
    obtain rfl := Except.ok.inj h
    exact .nil
  | cons entry rest ih =>
    obtain ⟨name, text⟩ := entry
    unfold compileEntries at h
    split at h
    · rename_i hnone
      have habsent : name ∉ mappable.map PropertyDefinition.name := by
        simpa using hnone
      rw [List.filter_cons_of_neg (by simpa using habsent)]
      exact ih h
    · rename_i own hown
      have hname : own.name = name := by simpa using List.find?_some hown
      have hmem : name ∈ mappable.map PropertyDefinition.name :=
        List.mem_map.mpr ⟨own, List.mem_of_find?_eq_some hown, hname⟩
      rw [List.filter_cons_of_pos (by simpa using hmem)]
      split at h
      · cases h
      · rename_i source hsource
        split at h
        · cases h
        · rename_i others hothers
          obtain rfl := Except.ok.inj h
          exact .cons ⟨rfl, ⟨own, hown, rfl⟩, hsource⟩ (ih hothers)

lemma definitions_setMapped (name : String) (mapped : List MappedProperty)
    (fields : List MappedField) :
    (setMapped name mapped fields).map MappedField.definition =
      fields.map MappedField.definition := by
  induction fields with
  | nil => rfl
  | cons field rest ih =>
    unfold setMapped
    split <;> simp [ih]

lemma definitions_compileTable {dialect : Dialect} {mark : Option String}
    {entries : List (String × PropertyMappings)} {fields compiled : List MappedField}
    (h : compileTable catalog dialect mark entries fields = .ok compiled) :
    compiled.map MappedField.definition = fields.map MappedField.definition := by
  induction entries generalizing fields with
  | nil =>
    obtain rfl := Except.ok.inj h
    rfl
  | cons entry rest ih =>
    unfold compileTable at h
    split at h
    · exact ih h
    · split at h
      · cases h
      · rw [ih h, definitions_setMapped]

lemma definitions_mappableFields (catalog : Catalog) (definitions : List FieldDefinition) :
    (mappableFields catalog definitions).map MappedField.definition =
      definitions.filter CanBeMapped := by
  have htest (definition : FieldDefinition) :
      (definition.name != annotationField && !definition.computed) =
        decide (CanBeMapped definition) := by
    rw [Bool.eq_iff_iff, decide_eq_true_iff]
    simp [CanBeMapped]
  rw [mappableFields, List.map_map]
  simp only [Function.comp_def, htest, List.map_id']

section Builds

variable {entityType : String} {schema : Schema} {mapper : Mapper}

lemma build_of_missing (h : schema.find? entityType = none) :
    build entityType config schema catalog = .error (.unknownEntityType entityType) := by
  simp only [build, h]

lemma build_eq (hschema : schema.find? entityType = some definitions) :
    build entityType config schema catalog =
      match compileTable catalog config.dialect config.mark?
          config.mappings.withoutBlanks.entries (mappableFields catalog definitions) with
      | .error error => .error error
      | .ok fields =>
        match firstFault? config.dialect config.mark? config.mappings.withoutBlanks fields with
        | some error => .error error
        | none => .ok ⟨entityType, config.dialect, config.mark?, config.mappings.withoutBlanks,
            fields⟩ := by
  simp only [build, hschema]
  rfl

lemma canBeMapped_of_compileTable {entries : List (String × PropertyMappings)}
    {fields : List MappedField}
    (h : compileTable catalog config.dialect config.mark? entries
      (mappableFields catalog definitions) = .ok fields) :
    ∀ field ∈ fields, CanBeMapped field.definition := by
  intro field hfield
  have hmem : field.definition ∈ definitions.filter CanBeMapped := by
    rw [← definitions_mappableFields catalog, ← definitions_compileTable h]
    exact List.mem_map_of_mem hfield
  simpa using (List.mem_filter.mp hmem).2

/-- A build fails with the first mapping that is wrong, or else with the first field that is. -/
lemma error?_build (hschema : schema.find? entityType = some definitions) :
    error? (build entityType config schema catalog) =
      (config.written.findSome? (mappingFault? config (mappableFields catalog definitions))).or
        (definitions.findSome? (fieldFault? config)) := by
  have htable := @error?_compileTable catalog config
    config.mappings.withoutBlanks.entries (mappableFields catalog definitions)
  have hwritten : MappingTable.listEntries config.mappings.withoutBlanks.entries =
      config.written := MappingTable.listed_withoutBlanks config.mappings
  rw [hwritten] at htable
  rw [← htable, build_eq hschema]
  cases hcompile : compileTable catalog config.dialect config.mark?
      config.mappings.withoutBlanks.entries (mappableFields catalog definitions) with
  | error error => rfl
  | ok fields =>
    have hfirst := @firstFault?_eq_findSome? config fields
      (canBeMapped_of_compileTable hcompile)
    rw [definitions_compileTable hcompile, definitions_mappableFields,
      findSome?_filter_canBeMapped] at hfirst
    rw [← hfirst]
    simp only
    cases firstFault? config.dialect config.mark? config.mappings.withoutBlanks fields <;> rfl

lemma forall₂_mapped {definition : FieldDefinition} {mapped : List MappedProperty}
    (h : (∃ mappings, config.mappings.withoutBlanks.find? definition.name = some mappings ∧
        compileEntries catalog config.dialect config.mark?
          (definition.properties.filter catalog.admits) mappings.entries = .ok mapped) ∨
      config.mappings.withoutBlanks.find? definition.name = none ∧ mapped = []) :
    List.Forall₂ (PropertyOf catalog config definition)
      (config.written.filter (IsOf catalog definition)) mapped := by
  have hsplit : config.written.filter (IsOf catalog definition) =
      (config.written.filter (·.field = definition.name)).filter fun m =>
        m.property ∈ (definition.properties.filter catalog.admits).map PropertyDefinition.name := by
    rw [List.filter_filter]
    congr 1
    funext m
    rw [Bool.eq_iff_iff, decide_eq_true_iff, IsOf]
    simp [and_comm]
  rw [hsplit, MapperConfig.written, ← MappingTable.listed_withoutBlanks,
    MappingTable.filter_listed]
  obtain ⟨mappings, hfound, hentries⟩ | ⟨hnone, rfl⟩ := h
  · rw [hfound, List.filter_map]
    refine List.forall₂_map_left_iff.mpr ((forall₂_of_compileEntries hentries).imp ?_)
    rintro ⟨name, text⟩ property ⟨hname, ⟨own, hown, hkind⟩, hsource⟩
    have hadmits := (List.mem_filter.mp (List.mem_of_find?_eq_some hown)).2
    rw [Catalog.admits, Bool.and_eq_true, Option.any_eq_true] at hadmits
    obtain ⟨-, kind, hfoundKind, -⟩ := hadmits
    rw [hfoundKind, Option.getD_some] at hkind
    exact ⟨hname, ⟨own, hown, hkind ▸ hfoundKind⟩, compile_eq_ok_iff.mp hsource⟩
  · rw [hnone]
    exact .nil

lemma build_ne_unknown (hschema : schema.find? entityType = some definitions) (id : String) :
    build entityType config schema catalog ≠ .error (.unknownEntityType id) := by
  intro h
  rw [← error?_eq_some_iff, error?_build hschema, Option.or_eq_some_iff] at h
  obtain h | ⟨-, h⟩ := h
  · obtain ⟨m, -, hm⟩ := List.exists_of_findSome?_eq_some h
    obtain ⟨field, -, hfield⟩ := Option.bind_eq_some_iff.mp hm
    simp at hfield
  · obtain ⟨definition, -, hdefinition⟩ := List.exists_of_findSome?_eq_some h
    simp [fieldFault?] at hdefinition

lemma mapperOf_of_build (hschema : schema.find? entityType = some definitions)
    (hnames : (definitions.map FieldDefinition.name).Nodup)
    (h : build entityType config schema catalog = .ok mapper) :
    MapperOf entityType catalog config definitions mapper := by
  have hfields {name : String} {field : MappedField}
      (hfield : mapper.field? name = some field) := compiled_of_field? h hfield
  rw [build_eq hschema] at h
  split at h
  · cases h
  · rename_i fields hcompile
    split at h
    · cases h
    · obtain rfl := Except.ok.inj h
      have hdefinitions : fields.map MappedField.definition = definitions.filter CanBeMapped :=
        (definitions_compileTable hcompile).trans (definitions_mappableFields catalog definitions)
      have hnodup : (fields.map (·.definition.name)).Nodup := by
        have hsub := hnames.sublist (List.filter_sublist (p := CanBeMapped).map _)
        rwa [← hdefinitions, List.map_map] at hsub
      refine ⟨rfl, rfl, fun mark => ?_, MappingTable.listed_withoutBlanks config.mappings,
        fun name mappings => MappingTable.not_isEmpty_of_withoutBlanks, ?_⟩
      · simp [MapperConfig.mark?, Option.filter_eq_some_iff]
      · rw [← hdefinitions, List.forall₂_map_left_iff, List.forall₂_same]
        intro field hfield
        obtain ⟨hmappable, hmapped⟩ :=
          hfields ((find?_eq_some_iff_of_nodup hnodup).mpr ⟨hfield, rfl⟩)
        rw [hmappable] at hmapped
        exact ⟨rfl, hmappable, forall₂_mapped hmapped⟩

end Builds

/-- A build fails for an entity type that the schema lacks. Otherwise, if the fields of the type
have distinct names, it fails exactly with the first mapping that is used and cannot be read, or,
when there is none, with the first demanding field whose main property is not mapped to raw data;
and what it builds is the table, compiled field by field. -/
theorem build_error_iff_firstFault (entityType : String) (config : MapperConfig) (schema : Schema)
    (catalog : Catalog) :
    (build entityType config schema catalog = .error (.unknownEntityType entityType) ↔
      schema.find? entityType = none) ∧
    ∀ definitions, schema.find? entityType = some definitions →
      (definitions.map FieldDefinition.name).Nodup →
      (∀ error, build entityType config schema catalog = .error error ↔
        FirstFault (Unreadable catalog config definitions) config.written error ∨
        (∀ m ∈ config.written, ∀ fault, ¬ Unreadable catalog config definitions m fault) ∧
          FirstFault (Unmet config) definitions error) ∧
      ∀ mapper, build entityType config schema catalog = .ok mapper →
        MapperOf entityType catalog config definitions mapper := by
  have hfaults (definitions : List FieldDefinition)
      (hschema : schema.find? entityType = some definitions)
      (hnames : (definitions.map FieldDefinition.name).Nodup) (error : MapperError) :
      build entityType config schema catalog = .error error ↔
        FirstFault (Unreadable catalog config definitions) config.written error ∨
        (∀ m ∈ config.written, ∀ fault, ¬ Unreadable catalog config definitions m fault) ∧
          FirstFault (Unmet config) definitions error := by
    rw [← error?_eq_some_iff, error?_build hschema, Option.or_eq_some_iff,
      findSome?_eq_some_iff_firstFault (mappingFault?_eq_some_iff hnames),
      findSome?_eq_none_iff_forall (mappingFault?_eq_some_iff hnames),
      findSome?_eq_some_iff_firstFault fieldFault?_eq_some_iff]
  refine ⟨⟨fun h => ?_, build_of_missing⟩, fun definitions hschema hnames =>
    ⟨hfaults definitions hschema hnames, fun mapper => mapperOf_of_build hschema hnames⟩⟩
  cases hschema : schema.find? entityType with
  | none => rfl
  | some definitions => exact absurd h (build_ne_unknown hschema entityType)

section Movie

/-- A table in which a label cannot be read and the language is blank; what is given for fields and
properties that are unknown or cannot be mapped does not matter. -/
def brokenMovieConfig : MapperConfig where
  dialect := .simple
  constantMark := some "+"
  mappings := ⟨[("director", ⟨[("value", "//")], by decide⟩),
    ("language", ⟨[("value", " ")], by decide⟩),
    ("links", ⟨[("options", "//"), ("title", "links//label"), ("uri", "/")], by decide⟩)],
    by decide⟩

/-- Books of which the title is the same text for all. -/
def constantBookConfig : MapperConfig where
  dialect := .simple
  constantMark := some "+"
  mappings := ⟨[("id", .ofList [("value", "key")]),
    ("title", .ofList [("value", "+Untitled")])], by decide⟩

/-- Broken movie mappings fail with the first label that cannot be read, a constant title of books
is a fault of the title, and the mapper of movies is compiled from its table. -/
theorem build_error_iff_firstFault_movie :
    movieSchema.find? "movie" = some movieFields ∧
    (movieFields.map FieldDefinition.name).Nodup ∧
    FirstFault (Unreadable Catalog.standard brokenMovieConfig movieFields)
      brokenMovieConfig.written
      (.invalidMapping "links" (.expression ⟨"links//label", .emptySegment 2⟩)) ∧
    MapperOf "movie" Catalog.standard movieConfig movieFields movieMapper ∧
    bookSchema.find? "book" = some bookFields ∧
    (bookFields.map FieldDefinition.name).Nodup ∧
    FirstFault (Unmet constantBookConfig) bookFields
      (.invalidMapping "title" (.constant "Title")) ∧
    build "film" movieConfig movieSchema Catalog.standard =
      .error (.unknownEntityType "film") := by
  have hmovie : movieSchema.find? "movie" = some movieFields := rfl
  have hmovieNames : (movieFields.map FieldDefinition.name).Nodup := by decide
  have hbook : bookSchema.find? "book" = some bookFields := rfl
  have hbookNames : (bookFields.map FieldDefinition.name).Nodup := by decide
  have hbroken := (((build_error_iff_firstFault "movie" brokenMovieConfig movieSchema
    Catalog.standard).2 movieFields hmovie hmovieNames).1 _).mp rfl
  have hbuilt := ((build_error_iff_firstFault "movie" movieConfig movieSchema
    Catalog.standard).2 movieFields hmovie hmovieNames).2 movieMapper build_movie
  have hconstant := (((build_error_iff_firstFault "book" constantBookConfig bookSchema
    Catalog.standard).2 bookFields hbook hbookNames).1 _).mp rfl
  have hunknown := (build_error_iff_firstFault "film" movieConfig movieSchema
    Catalog.standard).1.mpr rfl
  refine ⟨hmovie, hmovieNames, hbroken.resolve_right ?_, hbuilt, hbook, hbookNames,
    (hconstant.resolve_left ?_).2, hunknown⟩
  · rintro ⟨-, -, definition, -, -, hfault, -⟩
    generalize herror : MapperError.invalidMapping _ _ = error at hfault
    cases hfault <;> simp at herror
  · rintro ⟨-, m, -, -, hfault, -⟩
    generalize herror : MapperError.invalidMapping _ _ = error at hfault
    cases hfault
    simp at herror

end Movie

end Mapper

end RecordMapping

import Mathlib.Data.List.Basic
import RecordMapping.Mapping.Mapper

/-!
# Built mappers

What holds of every mapper that was built: each expression was read in the mapper's dialect, the
mapped properties of a field come in the order of their names, and of several fields with one name
only the first has mappings. A field is therefore known by its name, and a mapped property by its
name within the field.
-/

namespace RecordMapping

namespace MappedProperty

lemma expression?_eq_some_iff {property : MappedProperty} {expression : Expression} :
    property.expression? = some expression ↔ property.source = .path expression := by
  obtain ⟨name, kind, source⟩ := property
  cases source <;> simp [expression?]

/-- The plan that the values of a property are written through, if there is one. -/
def plan? (property : MappedProperty) : Option Plan :=
  property.expression?.bind Expression.plan?

lemma constant?_eq_some_iff {property : MappedProperty} {text : String} :
    property.constant? = some text ↔ property.source = .constant text := by
  obtain ⟨name, kind, source⟩ := property
  cases source <;> simp [constant?]

end MappedProperty

namespace Mapper

structure Compiled (dialect : Dialect) (mapped : List MappedProperty) : Prop where
  sorted : mapped.Pairwise fun a b => a.name < b.name
  parsed : ∀ property ∈ mapped, ∀ expression, property.expression? = some expression →
    ∃ source, Expression.parse dialect source = .ok expression

/-- Fields as they are compiled: a field whose name occurs before has no mappings. -/
structure Ready (dialect : Dialect) (fields : List MappedField) : Prop where
  shadowed : fields.Pairwise fun a b => a.definition.name = b.definition.name → b.mapped = []
  compiled : ∀ field ∈ fields, Compiled dialect field.mapped

lemma Compiled.nil (dialect : Dialect) : Compiled dialect [] where
  sorted := List.Pairwise.nil
  parsed := by simp

lemma compile_ok {dialect : Dialect} {mark : Option String} {text : String}
    {expression : Expression} (h : compile dialect mark text = .ok (.path expression)) :
    ∃ text, Expression.parse dialect text = .ok expression := by
  unfold compile at h
  split at h
  · cases h
  · rename_i inner _
    split at h
    · rename_i compiled hcompiled
      cases h
      exact ⟨inner, hcompiled⟩
    · cases h

theorem compileEntries_ok {catalog : Catalog} {dialect : Dialect} {mark : Option String}
    {mappable : List PropertyDefinition} {entries : List (String × String)}
    (hs : entries.Pairwise fun a b => a.1 < b.1) {mapped : List MappedProperty}
    (h : compileEntries catalog dialect mark mappable entries = .ok mapped) :
    Compiled dialect mapped ∧ ∀ property ∈ mapped, ∃ text, (property.name, text) ∈ entries := by
  induction entries generalizing mapped with
  | nil =>
    obtain rfl := Except.ok.inj h
    exact ⟨Compiled.nil dialect, by simp⟩
  | cons entry rest ih =>
    obtain ⟨name, text⟩ := entry
    obtain ⟨hfirst, hrest⟩ := List.pairwise_cons.mp hs
    unfold compileEntries at h
    split at h
    · obtain ⟨hc, hnames⟩ := ih hrest h
      refine ⟨hc, fun property hp => ?_⟩
      obtain ⟨text', hmem⟩ := hnames property hp
      exact ⟨text', List.mem_cons_of_mem _ hmem⟩
    · split at h
      · cases h
      · rename_i source hsource
        split at h
        · cases h
        · rename_i others hothers
          obtain rfl := Except.ok.inj h
          obtain ⟨hc, hnames⟩ := ih hrest hothers
          refine ⟨⟨List.pairwise_cons.mpr ⟨fun b hb => ?_, hc.sorted⟩, ?_⟩, ?_⟩
          · obtain ⟨text', hmem⟩ := hnames b hb
            exact hfirst _ hmem
          · intro property hp expression he
            rcases List.mem_cons.mp hp with rfl | hp
            · have hpath : source = .path expression :=
                MappedProperty.expression?_eq_some_iff.mp he
              exact compile_ok (hpath ▸ hsource)
            · exact hc.parsed property hp expression he
          · intro property hp
            rcases List.mem_cons.mp hp with rfl | hp
            · exact ⟨text, List.mem_cons_self⟩
            · obtain ⟨text', hmem⟩ := hnames property hp
              exact ⟨text', List.mem_cons_of_mem _ hmem⟩

lemma mem_setMapped {name : String} {mapped : List MappedProperty} {fields : List MappedField}
    {field : MappedField} (h : field ∈ setMapped name mapped fields) :
    field ∈ fields ∨ field.definition.name = name ∧ field.mapped = mapped := by
  induction fields with
  | nil => cases h
  | cons head rest ih =>
    unfold setMapped at h
    split at h
    · rename_i hname
      rcases List.mem_cons.mp h with rfl | h
      · exact Or.inr ⟨hname, rfl⟩
      · exact Or.inl (List.mem_cons_of_mem _ h)
    · rcases List.mem_cons.mp h with rfl | h
      · exact Or.inl List.mem_cons_self
      · exact (ih h).imp_left (List.mem_cons_of_mem _)

lemma shadowed_setMapped (name : String) (mapped : List MappedProperty) {fields : List MappedField}
    (hs : fields.Pairwise fun a b => a.definition.name = b.definition.name → b.mapped = []) :
    (setMapped name mapped fields).Pairwise
      fun a b => a.definition.name = b.definition.name → b.mapped = [] := by
  induction fields with
  | nil => exact List.Pairwise.nil
  | cons head rest ih =>
    obtain ⟨hhead, hrest⟩ := List.pairwise_cons.mp hs
    simp only [setMapped]
    split
    · exact List.pairwise_cons.mpr ⟨hhead, hrest⟩
    · rename_i hne
      refine List.pairwise_cons.mpr ⟨fun field hfield hname => ?_, ih hrest⟩
      rcases mem_setMapped hfield with h | ⟨h, -⟩
      · exact hhead field h hname
      · exact absurd (hname.trans h) hne

/-- Mapping the first field of a name keeps the later ones of that name without mappings. -/
lemma Ready.setMapped {dialect : Dialect} (name : String) {mapped : List MappedProperty}
    {fields : List MappedField} (hf : Ready dialect fields) (hm : Compiled dialect mapped) :
    Ready dialect (setMapped name mapped fields) where
  shadowed := shadowed_setMapped name mapped hf.shadowed
  compiled field hfield := by
    rcases mem_setMapped hfield with h | ⟨-, h⟩
    · exact hf.compiled field h
    · exact h ▸ hm

theorem compileTable_ok {catalog : Catalog} {dialect : Dialect} {mark : Option String}
    {entries : List (String × PropertyMappings)} {fields compiled : List MappedField}
    (hf : Ready dialect fields)
    (h : compileTable catalog dialect mark entries fields = .ok compiled) :
    Ready dialect compiled := by
  induction entries generalizing fields with
  | nil => exact Except.ok.inj h ▸ hf
  | cons entry rest ih =>
    obtain ⟨name, mappings⟩ := entry
    unfold compileTable at h
    split at h
    · exact ih hf h
    · split at h
      · cases h
      · rename_i mapped hmapped
        exact ih (hf.setMapped name (compileEntries_ok mappings.sorted hmapped).1) h

lemma ready_mappableFields (catalog : Catalog) (dialect : Dialect)
    (definitions : List FieldDefinition) : Ready dialect (mappableFields catalog definitions) where
  shadowed := List.pairwise_map.mpr (List.pairwise_of_forall fun _ _ _ => rfl)
  compiled field hfield := by
    obtain ⟨definition, -, rfl⟩ := List.mem_map.mp hfield
    exact Compiled.nil dialect

lemma build_ok {entityType : String} {config : MapperConfig} {schema : Schema} {catalog : Catalog}
    {mapper : Mapper} (h : build entityType config schema catalog = .ok mapper) :
    ∃ definitions, schema.find? entityType = some definitions ∧
      mapper.dialect = config.dialect ∧
      compileTable catalog mapper.dialect mapper.constantMark mapper.mappings.entries
        (mappableFields catalog definitions) = .ok mapper.fields ∧
      firstFault? mapper.dialect mapper.constantMark mapper.mappings mapper.fields = none := by
  simp only [build] at h
  split at h
  · cases h
  · rename_i definitions hschema
    split at h
    · cases h
    · rename_i fields hfields
      split at h
      · cases h
      · rename_i hfault
        obtain rfl := Except.ok.inj h
        exact ⟨definitions, hschema, rfl, hfields, hfault⟩

theorem ready_of_build {entityType : String} {config : MapperConfig} {schema : Schema}
    {catalog : Catalog} {mapper : Mapper}
    (h : build entityType config schema catalog = .ok mapper) :
    mapper.dialect = config.dialect ∧ Ready config.dialect mapper.fields := by
  obtain ⟨definitions, -, hdialect, hcompile, -⟩ := build_ok h
  rw [hdialect] at hcompile
  have hready := ready_mappableFields catalog config.dialect definitions
  exact ⟨hdialect, compileTable_ok hready hcompile⟩

lemma mem_of_field? {mapper : Mapper} {name : String} {field : MappedField}
    (h : mapper.field? name = some field) :
    field ∈ mapper.fields ∧ field.definition.name = name :=
  ⟨List.mem_of_find?_eq_some h, by simpa using List.find?_some h⟩

theorem Ready.field?_eq {mapper : Mapper} {dialect : Dialect} (h : Ready dialect mapper.fields)
    {field : MappedField} (hmem : field ∈ mapper.fields) (hne : field.mapped ≠ []) :
    mapper.field? field.definition.name = some field := by
  obtain ⟨entityType, dialect', mark, mappings, fields⟩ := mapper
  have hs := h.shadowed
  clear h
  simp only [field?] at hmem hs ⊢
  induction fields with
  | nil => cases hmem
  | cons head rest ih =>
    obtain ⟨hhead, hrest⟩ := List.pairwise_cons.mp hs
    by_cases hname : head.definition.name = field.definition.name
    · rcases List.mem_cons.mp hmem with rfl | hin
      · simp
      · exact absurd (hhead field hin hname) hne
    · rcases List.mem_cons.mp hmem with rfl | hin
      · exact absurd rfl hname
      · simpa [hname] using ih hin hrest

theorem Compiled.mapped?_eq {field : MappedField} {dialect : Dialect}
    (h : Compiled dialect field.mapped) {property : MappedProperty}
    (hmem : property ∈ field.mapped) : field.mapped? property.name = some property := by
  obtain ⟨definition, mappable, mapped⟩ := field
  have hs := h.sorted
  clear h
  simp only [MappedField.mapped?] at hmem hs ⊢
  induction mapped with
  | nil => cases hmem
  | cons head rest ih =>
    obtain ⟨hhead, hrest⟩ := List.pairwise_cons.mp hs
    rcases List.mem_cons.mp hmem with rfl | hin
    · simp
    · have hne : head.name ≠ property.name := fun he =>
        String.lt_irrefl _ (he ▸ hhead property hin)
      simpa [hne] using ih hin hrest

lemma mem_of_mapped? {field : MappedField} {name : String} {property : MappedProperty}
    (h : field.mapped? name = some property) : property ∈ field.mapped ∧ property.name = name :=
  ⟨List.mem_of_find?_eq_some h, by simpa using List.find?_some h⟩

lemma Compiled.nodup_names {dialect : Dialect} {mapped : List MappedProperty}
    (h : Compiled dialect mapped) : (mapped.map MappedProperty.name).Nodup := by
  refine List.pairwise_map.mpr (h.sorted.imp ?_)
  intro a b hab he
  exact String.lt_irrefl _ (he ▸ hab)

section Movie

def movieFields : List FieldDefinition :=
  [{ FieldDefinition.base "links" "Links" .link with cardinality := .unlimited },
    .base "language" "Language" .string]

def movieSchema : Schema := ⟨[("movie", movieFields)], by decide⟩

/-- Every item of a list is a link, and the language is constant. -/
def movieConfig : MapperConfig where
  dialect := .simple
  constantMark := some "+"
  mappings := ⟨[("language", ⟨[("value", "+en")], by decide⟩),
    ("links", ⟨[("title", "links/*/label"), ("uri", "links/*/href")], by decide⟩)], by decide⟩

def linkPlan (member : String) : Plan := [.step (.key "links"), .wildcard, .step (.key member)]

def linkTitle : MappedProperty :=
  ⟨"title", .primitive .string, .path (.slashed ⟨"links/*/label", linkPlan "label"⟩)⟩

def linkUri : MappedProperty :=
  ⟨"uri", .primitive .uri, .path (.slashed ⟨"links/*/href", linkPlan "href"⟩)⟩

def movieLinks : MappedField where
  definition := { FieldDefinition.base "links" "Links" .link with cardinality := .unlimited }
  mappable := [.plain "uri" "uri", .plain "title" "string"]
  mapped := [linkTitle, linkUri]

def movieLanguage : MappedField where
  definition := .base "language" "Language" .string
  mappable := [.plain "value" "string"]
  mapped := [⟨"value", .primitive .string, .constant "en"⟩]

def movieMapper : Mapper where
  entityType := "movie"
  dialect := .simple
  constantMark := some "+"
  mappings := movieConfig.mappings
  fields := [movieLinks, movieLanguage]

lemma build_movie : build "movie" movieConfig movieSchema Catalog.standard = .ok movieMapper := by
  rfl

lemma field?_links : movieMapper.field? "links" = some movieLinks := rfl

end Movie

end Mapper

end RecordMapping

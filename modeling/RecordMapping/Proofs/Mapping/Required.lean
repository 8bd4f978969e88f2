import RecordMapping.Proofs.Dictionary
import RecordMapping.Proofs.Mapping.Built

/-!
# Required fields

A mapper is built only if every required field has its main property in the mapping table, but the
table also holds mappings that are ignored. Main statement: a required field of a built mapper is
read from raw data exactly when its definition admits a mapping of the main property and no earlier
field has its name; otherwise its main property has no mapping at all.
-/

namespace RecordMapping

namespace MappedField

/-- Whether the main property of a field is compiled to an expression over raw data. -/
def IsRead (field : MappedField) : Prop :=
  ∃ property ∈ field.mapped, property.name = field.definition.mainProperty ∧
    ∃ expression, property.expression? = some expression

end MappedField

namespace Mapper

variable {catalog : Catalog} {dialect : Dialect} {mark : Option String}

lemma name_mem_of_compileEntries {mappable : List PropertyDefinition}
    {entries : List (String × String)} {mapped : List MappedProperty}
    (h : compileEntries catalog dialect mark mappable entries = .ok mapped) :
    ∀ property ∈ mapped, property.name ∈ mappable.map PropertyDefinition.name := by
  induction entries generalizing mapped with
  | nil =>
    obtain rfl := Except.ok.inj h
    simp
  | cons entry rest ih =>
    obtain ⟨name, text⟩ := entry
    unfold compileEntries at h
    split at h
    · exact ih h
    · rename_i definition hfound
      split at h
      · cases h
      · split at h
        · cases h
        · rename_i others hothers
          obtain rfl := Except.ok.inj h
          intro property hproperty
          rcases List.mem_cons.mp hproperty with rfl | hproperty
          · have hname : definition.name = name := by simpa using List.find?_some hfound
            exact List.mem_map.mpr ⟨definition, List.mem_of_find?_eq_some hfound, hname⟩
          · exact ih hothers property hproperty

lemma exists_of_compileEntries {mappable : List PropertyDefinition}
    {entries : List (String × String)} {mapped : List MappedProperty}
    (h : compileEntries catalog dialect mark mappable entries = .ok mapped)
    {name text : String} (hentry : (name, text) ∈ entries)
    (hname : name ∈ mappable.map PropertyDefinition.name) :
    ∃ property ∈ mapped, property.name = name ∧
      compile dialect mark text = .ok property.source := by
  induction entries generalizing mapped with
  | nil => cases hentry
  | cons entry rest ih =>
    obtain ⟨first, firstText⟩ := entry
    unfold compileEntries at h
    split at h
    · rename_i hnone
      rcases List.mem_cons.mp hentry with heq | hentry
      · obtain ⟨rfl, rfl⟩ := Prod.mk.inj heq
        obtain ⟨definition, hmem, hdefinition⟩ := List.mem_map.mp hname
        simpa [hdefinition] using List.find?_eq_none.mp hnone definition hmem
      · exact ih h hentry
    · split at h
      · cases h
      · rename_i source hsource
        split at h
        · cases h
        · rename_i others hothers
          obtain rfl := Except.ok.inj h
          rcases List.mem_cons.mp hentry with heq | hentry
          · obtain ⟨rfl, rfl⟩ := Prod.mk.inj heq
            exact ⟨_, List.mem_cons_self, rfl, hsource⟩
          · obtain ⟨property, hmem, hproperty⟩ := ih hothers hentry
            exact ⟨property, List.mem_cons_of_mem _ hmem, hproperty⟩

lemma expression?_of_compile {text : String} {property : MappedProperty}
    (h : compile dialect mark text = .ok property.source)
    (hpath : (MappingSource.classify mark text).isConstant = false) :
    ∃ expression, property.expression? = some expression := by
  unfold compile at h
  split at h
  · rename_i hconstant
    simp [hconstant, MappingSource.isConstant] at hpath
  · split at h
    · rename_i compiled _
      exact ⟨compiled, MappedProperty.expression?_eq_some_iff.mpr (Except.ok.inj h).symm⟩
    · cases h

lemma find?_setMapped (name other : String) (mapped : List MappedProperty)
    (fields : List MappedField) :
    (setMapped name mapped fields).find? (·.definition.name == other) =
      if other = name then
        (fields.find? (·.definition.name == other)).map fun field => { field with mapped := mapped }
      else fields.find? (·.definition.name == other) := by
  induction fields with
  | nil => simp [setMapped]
  | cons head rest ih =>
    unfold setMapped
    by_cases hhead : head.definition.name = name
    · by_cases hother : other = name
      · simp [hhead, hother]
      · simp [hhead, hother, Ne.symm hother]
    · by_cases hother : head.definition.name = other
      · have hne : other ≠ name := fun h => hhead (hother.trans h)
        simp [hother, hne]
      · simp [hhead, hother, ih]

/-- A field as it is found by its name after the entries of a table were compiled. -/
structure CompiledFrom (catalog : Catalog) (dialect : Dialect) (mark : Option String)
    (entries : List (String × PropertyMappings)) (before after : MappedField) : Prop where
  definition : after.definition = before.definition
  mappable : after.mappable = before.mappable
  mapped : ∀ mappings, (before.definition.name, mappings) ∈ entries →
    compileEntries catalog dialect mark before.mappable mappings.entries = .ok after.mapped
  unmapped : (∀ mappings, (before.definition.name, mappings) ∉ entries) →
    after.mapped = before.mapped

namespace CompiledFrom

variable {entries : List (String × PropertyMappings)} {mappings : PropertyMappings}
  {before after : MappedField} {mapped : List MappedProperty} {name : String}

lemma cons_of_ne (h : CompiledFrom catalog dialect mark entries before after)
    (hne : before.definition.name ≠ name) :
    CompiledFrom catalog dialect mark ((name, mappings) :: entries) before after where
  definition := h.definition
  mappable := h.mappable
  mapped own hmem := by
    rcases List.mem_cons.mp hmem with heq | hmem
    · exact absurd (congrArg Prod.fst heq) hne
    · exact h.mapped own hmem
  unmapped hmissing := h.unmapped fun own hmem => hmissing own (List.mem_cons_of_mem _ hmem)

/-- An entry of the field's name gives its mappings when no later entry has that name. -/
lemma cons_of_eq
    (h : CompiledFrom catalog dialect mark entries { before with mapped := mapped } after)
    (hmapped :
      compileEntries catalog dialect mark before.mappable mappings.entries = .ok mapped)
    (hlast : ∀ own, (before.definition.name, own) ∉ entries) :
    CompiledFrom catalog dialect mark ((before.definition.name, mappings) :: entries) before
      after where
  definition := h.definition
  mappable := h.mappable
  mapped own hmem := by
    rcases List.mem_cons.mp hmem with heq | hmem
    · obtain rfl : own = mappings := congrArg Prod.snd heq
      exact h.unmapped hlast ▸ hmapped
    · exact absurd hmem (hlast own)
  unmapped hmissing := absurd List.mem_cons_self (hmissing mappings)

end CompiledFrom

/-- The first field of a name stays the first one, and takes the mappings of the name's entry. -/
theorem compiledFrom_of_compileTable {entries : List (String × PropertyMappings)}
    (hs : entries.Pairwise fun a b => a.1 < b.1) {fields compiled : List MappedField}
    (h : compileTable catalog dialect mark entries fields = .ok compiled) {name : String}
    {after : MappedField} (hafter : compiled.find? (·.definition.name == name) = some after) :
    ∃ before, fields.find? (·.definition.name == name) = some before ∧
      CompiledFrom catalog dialect mark entries before after := by
  induction entries generalizing fields with
  | nil =>
    obtain rfl := Except.ok.inj h
    exact ⟨after, hafter, rfl, rfl, by simp, fun _ => rfl⟩
  | cons entry rest ih =>
    obtain ⟨entryName, mappings⟩ := entry
    obtain ⟨hfirst, hrest⟩ := List.pairwise_cons.mp hs
    unfold compileTable at h
    split at h
    · rename_i hnone
      obtain ⟨before, hbefore, hcompiled⟩ := ih hrest h
      have hname : before.definition.name = name := by simpa using List.find?_some hbefore
      refine ⟨before, hbefore, hcompiled.cons_of_ne fun heq => ?_⟩
      simp [← hname, heq, hnone] at hbefore
    · rename_i field hfield
      split at h
      · cases h
      · rename_i mapped hmapped
        obtain ⟨later, hlater, hcompiled⟩ := ih hrest h
        have hname : later.definition.name = name := by simpa using List.find?_some hlater
        rw [find?_setMapped] at hlater
        by_cases hentry : name = entryName
        · subst hentry
          rw [if_pos rfl, hfield, Option.map_some] at hlater
          obtain rfl := Option.some.inj hlater
          simp only at hname
          subst hname
          exact ⟨field, hfield, hcompiled.cons_of_eq hmapped fun own hmem =>
            String.lt_irrefl _ (hfirst (field.definition.name, own) hmem)⟩
        · rw [if_neg hentry] at hlater
          exact ⟨later, hlater, hcompiled.cons_of_ne (hname ▸ hentry)⟩

lemma property?_of_firstFault? {table : MappingTable} {fields : List MappedField}
    (h : firstFault? dialect mark table fields = none) {field : MappedField}
    (hmem : field ∈ fields) (hrequired : isRequired dialect field.definition) :
    ∃ text, table.property? field.definition.name field.definition.mainProperty = some text ∧
      (MappingSource.classify mark text).isConstant = false := by
  induction fields with
  | nil => cases hmem
  | cons head rest ih =>
    unfold firstFault? at h
    rcases List.mem_cons.mp hmem with rfl | hmem
    · rw [if_pos hrequired] at h
      split at h
      · cases h
      · rename_i hfault
        unfold requiredFault? at hfault
        split at hfault
        · cases hfault
        · rename_i text htext
          exact ⟨text, htext, by simpa using hfault⟩
    · split at h
      · split at h
        · cases h
        · exact ih h hmem
      · exact ih h hmem

lemma of_find?_mappableFields {definitions : List FieldDefinition} {name : String}
    {field : MappedField}
    (h : (mappableFields catalog definitions).find? (·.definition.name == name) = some field) :
    field.mappable = field.definition.properties.filter catalog.admits ∧ field.mapped = [] := by
  obtain ⟨definition, -, rfl⟩ := List.mem_map.mp (List.mem_of_find?_eq_some h)
  exact ⟨rfl, rfl⟩

section Built

variable {entityType : String} {config : MapperConfig} {schema : Schema} {mapper : Mapper}
  {field : MappedField}

lemma compiled_of_field? (h : build entityType config schema catalog = .ok mapper) {name : String}
    (hfield : mapper.field? name = some field) :
    field.mappable = field.definition.properties.filter catalog.admits ∧
      ((∃ mappings, mapper.mappings.find? name = some mappings ∧
          compileEntries catalog mapper.dialect mapper.constantMark field.mappable
            mappings.entries = .ok field.mapped) ∨
        mapper.mappings.find? name = none ∧ field.mapped = []) := by
  obtain ⟨definitions, -, -, hcompile, -⟩ := build_ok h
  obtain ⟨before, hbefore, hcompiled⟩ :=
    compiledFrom_of_compileTable mapper.mappings.sorted hcompile hfield
  have hname : before.definition.name = name := by simpa using List.find?_some hbefore
  obtain ⟨hmappable, hmapped⟩ := of_find?_mappableFields hbefore
  rw [hcompiled.mappable, hcompiled.definition]
  refine ⟨hmappable, ?_⟩
  cases hfound : mapper.mappings.find? name with
  | some mappings =>
    have hentry := Dictionary.find?_eq_some_iff.mp (hname ▸ hfound)
    exact .inl ⟨mappings, rfl, hcompiled.mapped mappings hentry⟩
  | none =>
    have hmissing := Dictionary.find?_eq_none_iff.mp (hname ▸ hfound)
    exact .inr ⟨rfl, (hcompiled.unmapped hmissing).trans hmapped⟩

lemma exists_admits_of_mem_mapped (h : build entityType config schema catalog = .ok mapper)
    {name : String} (hfield : mapper.field? name = some field) {property : MappedProperty}
    (hproperty : property ∈ field.mapped) :
    ∃ definition ∈ field.definition.properties,
      definition.name = property.name ∧ catalog.admits definition := by
  obtain ⟨hmappable, ⟨mappings, -, hentries⟩ | ⟨-, hnone⟩⟩ := compiled_of_field? h hfield
  · obtain ⟨definition, hmem, hname⟩ :=
      List.mem_map.mp (name_mem_of_compileEntries hentries property hproperty)
    rw [hmappable] at hmem
    obtain ⟨hmem, hadmits⟩ := List.mem_filter.mp hmem
    exact ⟨definition, hmem, hname, hadmits⟩
  · simp [hnone] at hproperty

/-- Whether a mapper can read a field from raw data: the field is the first one of its name, and its
definition has the main property as one that can be mapped. -/
structure Reads (catalog : Catalog) (mapper : Mapper) (field : MappedField) : Prop where
  first : mapper.field? field.definition.name = some field
  admits : ∃ property ∈ field.definition.properties,
    property.name = field.definition.mainProperty ∧ catalog.admits property

lemma reads_of_mem_mapped (h : build entityType config schema catalog = .ok mapper)
    (hmem : field ∈ mapper.fields) {property : MappedProperty} (hproperty : property ∈ field.mapped)
    (hname : property.name = field.definition.mainProperty) : Reads catalog mapper field := by
  have hfirst := (ready_of_build h).2.field?_eq hmem (List.ne_nil_of_mem hproperty)
  exact ⟨hfirst, hname ▸ exists_admits_of_mem_mapped h hfirst hproperty⟩

lemma isRead_of_reads (h : build entityType config schema catalog = .ok mapper)
    (hmem : field ∈ mapper.fields) (hrequired : isRequired mapper.dialect field.definition)
    (hreads : Reads catalog mapper field) : field.IsRead := by
  obtain ⟨hfirst, definition, hdefinition, hname, hadmits⟩ := hreads
  obtain ⟨definitions, -, -, -, hfault⟩ := build_ok h
  obtain ⟨text, htext, hpath⟩ := property?_of_firstFault? hfault hmem hrequired
  obtain ⟨mappings, hmappings, hentry⟩ := Option.bind_eq_some_iff.mp htext
  obtain ⟨hmappable, ⟨own, hown, hentries⟩ | ⟨hnone, -⟩⟩ := compiled_of_field? h hfirst
  · obtain rfl := Option.some.inj (hmappings.symm.trans hown)
    have hmain : field.definition.mainProperty ∈ field.mappable.map PropertyDefinition.name := by
      rw [hmappable]
      exact List.mem_map.mpr ⟨definition, List.mem_filter.mpr ⟨hdefinition, hadmits⟩, hname⟩
    obtain ⟨property, hproperty, hpropertyName, hcompile⟩ :=
      exists_of_compileEntries hentries (Dictionary.find?_eq_some_iff.mp hentry) hmain
    exact ⟨property, hproperty, hpropertyName, expression?_of_compile hcompile hpath⟩
  · simp [hnone] at hmappings

/-- A required field of a built mapper is read from raw data exactly when it is the first one of its
name and its main property can be mapped. Otherwise the mapping of the main property was ignored,
and the mapper was built all the same. -/
theorem required_isRead_iff (h : build entityType config schema catalog = .ok mapper)
    (hmem : field ∈ mapper.fields) (hrequired : isRequired mapper.dialect field.definition) :
    (field.IsRead ↔ Reads catalog mapper field) ∧
      (¬ field.IsRead → field.mapped? field.definition.mainProperty = none) := by
  have hread := isRead_of_reads h hmem hrequired
  constructor
  · constructor
    · rintro ⟨property, hproperty, hname, -⟩
      exact reads_of_mem_mapped h hmem hproperty hname
    · exact hread
  · intro hunread
    cases hmapped : field.mapped? field.definition.mainProperty with
    | none => rfl
    | some property =>
      obtain ⟨hproperty, hname⟩ := mem_of_mapped? hmapped
      exact absurd (hread (reads_of_mem_mapped h hmem hproperty hname)) hunread

end Built

section Book

/-- Books have an identifier that is computed, so that it cannot be mapped, and a title. -/
def bookFields : List FieldDefinition :=
  [{ FieldDefinition.base "id" "ID" .string with properties := [.computed "value" "string"] },
    .base "title" "Title" .string]

def bookSchema : Schema := ⟨[("book", bookFields)], by decide⟩

/-- Both fields are mapped to members of the record. -/
def bookConfig : MapperConfig where
  dialect := .simple
  constantMark := none
  mappings := ⟨[("id", ⟨[("value", "key")], by decide⟩),
    ("title", ⟨[("value", "name")], by decide⟩)], by decide⟩

def bookId : MappedField where
  definition :=
    { FieldDefinition.base "id" "ID" .string with properties := [.computed "value" "string"] }
  mappable := []
  mapped := []

def bookTitle : MappedField where
  definition := .base "title" "Title" .string
  mappable := [.plain "value" "string"]
  mapped := [⟨"value", .primitive .string, .path (.slashed ⟨"name", [.step (.key "name")]⟩)⟩]

def bookMapper : Mapper where
  entityType := "book"
  dialect := .simple
  constantMark := none
  mappings := bookConfig.mappings
  fields := [bookId, bookTitle]

lemma build_book : build "book" bookConfig bookSchema Catalog.standard = .ok bookMapper := by
  rfl

/-- The mapper of books is built although nothing is read for their required identifier; their
title is read. -/
theorem required_isRead_iff_book :
    build "book" bookConfig bookSchema Catalog.standard = .ok bookMapper ∧
    bookId ∈ bookMapper.fields ∧ isRequired .simple bookId.definition ∧
    ¬ bookId.IsRead ∧ bookId.mapped? "value" = none ∧
    bookTitle ∈ bookMapper.fields ∧ isRequired .simple bookTitle.definition ∧
    bookTitle.IsRead := by
  have hid : bookId ∈ bookMapper.fields := by simp [bookMapper]
  have htitle : bookTitle ∈ bookMapper.fields := by simp [bookMapper]
  obtain ⟨hidIff, hidUnread⟩ := required_isRead_iff build_book hid rfl
  obtain ⟨htitleIff, -⟩ := required_isRead_iff build_book htitle rfl
  have hunread : ¬ bookId.IsRead := by
    rw [hidIff]
    rintro ⟨-, property, hproperty, -, hadmits⟩
    obtain rfl := List.mem_singleton.mp hproperty
    cases hadmits
  have hread : bookTitle.IsRead :=
    htitleIff.mpr ⟨rfl, .plain "value" "string", List.mem_singleton_self _, rfl, rfl⟩
  exact ⟨build_book, hid, rfl, hunread, hidUnread hunread, htitle, rfl, hread⟩

end Book

end Mapper

end RecordMapping

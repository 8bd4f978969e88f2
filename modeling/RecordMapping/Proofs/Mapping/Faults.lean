import RecordMapping.Proofs.Mapping.Required
import RecordMapping.Proofs.Mapping.Tables

/-!
# Faults of a configuration

A mapping is faulty when it is used, is no constant and cannot be read in the dialect; a field is
faulty when it has to be mapped and its main property is not, or to a constant. Compiling a table
fails with its first faulty mapping, in the order of the field names and the property names, and the
required fields are checked in the order of the schema.
-/

namespace RecordMapping

namespace MapperConfig

/-- The mappings of a configuration that are not blank, in the order of the field names and the
property names. -/
def written (config : MapperConfig) : List Mapping :=
  config.mappings.listed.filter Mapping.isWritten

/-- An expression stands for a constant text when the text follows the configured mark, unless that
is empty. -/
def Constant (config : MapperConfig) (expression text : String) : Prop :=
  ∃ mark, config.constantMark = some mark ∧ mark ≠ "" ∧ expression = mark ++ text

/-- What an expression is compiled to: its constant, or else what the dialect reads of it. -/
inductive Compiles (config : MapperConfig) (expression : String) : MappedSource → Prop where
  | constant {text : String} (h : config.Constant expression text) :
      Compiles config expression (.constant text)
  | path {compiled : Expression} (h : ∀ text, ¬ config.Constant expression text)
      (hparse : Expression.parse config.dialect expression = .ok compiled) :
      Compiles config expression (.path compiled)

/-- The mark of a configuration, if constants are enabled. -/
def mark? (config : MapperConfig) : Option String := config.constantMark.filter fun m => !m.isEmpty

end MapperConfig

namespace MappingSource

lemma afterMark?_eq_some_iff {mark text rest : List Char} :
    afterMark? mark text = some rest ↔ text = mark ++ rest := by
  induction mark generalizing text with
  | nil => simp [afterMark?]
  | cons c mark ih =>
    cases text with
    | nil => simp [afterMark?]
    | cons d text =>
      by_cases hc : c = d
      · simp [afterMark?, hc, ih]
      · simp [afterMark?, hc, Ne.symm hc]

variable {config : MapperConfig} {expression : String}

theorem classify_eq_constant_iff {text : String} :
    classify config.mark? expression = .constant text ↔ config.Constant expression text := by
  unfold classify MapperConfig.mark? MapperConfig.Constant
  cases config.constantMark with
  | none => simp
  | some mark =>
    by_cases hmark : mark = ""
    · simp [hmark, Option.filter]
    · have hempty : mark.isEmpty = false := by simpa using hmark
      simp only [Option.filter, hempty, Bool.not_false, if_true, Option.some.injEq,
        exists_eq_left', hmark, ne_eq, not_false_eq_true, true_and, Bool.false_eq_true, if_false]
      split
      · rename_i rest hrest
        rw [afterMark?_eq_some_iff] at hrest
        rw [constant.injEq, ← String.toList_inj, ← String.toList_inj, String.toList_append, hrest]
        simp
      · rename_i hrest
        constructor
        · intro h
          cases h
        · rintro rfl
          have hsome : afterMark? mark.toList (mark ++ text).toList = some text.toList :=
            afterMark?_eq_some_iff.mpr String.toList_append
          rw [hrest] at hsome
          cases hsome

lemma classify_eq_path_iff {source : String} :
    classify config.mark? expression = .path source ↔
      source = expression ∧ ∀ text, ¬ config.Constant expression text := by
  simp only [← classify_eq_constant_iff]
  unfold classify
  split
  · simp [eq_comm]
  · split
    · simp [eq_comm]
    · split <;> simp [eq_comm]

end MappingSource

/-- The first item of a list that is faulty has a fault. -/
def FirstFault {α ε : Type} (faulty : α → ε → Prop) (items : List α) (fault : ε) : Prop :=
  ∃ before item after, items = before ++ item :: after ∧ faulty item fault ∧
    ∀ earlier ∈ before, ∀ other, ¬ faulty earlier other

section FirstFault

variable {α ε : Type} {faulty : α → ε → Prop} {check : α → Option ε} {items : List α}

lemma findSome?_eq_some_iff_firstFault
    (h : ∀ item fault, check item = some fault ↔ faulty item fault) {fault : ε} :
    items.findSome? check = some fault ↔ FirstFault faulty items fault := by
  simp only [List.findSome?_eq_some_iff, FirstFault, Option.eq_none_iff_forall_ne_some, ne_eq, h]

lemma findSome?_eq_none_iff_forall
    (h : ∀ item fault, check item = some fault ↔ faulty item fault) :
    items.findSome? check = none ↔ ∀ item ∈ items, ∀ fault, ¬ faulty item fault := by
  rw [List.findSome?_eq_none_iff]
  simp only [Option.eq_none_iff_forall_ne_some, ne_eq, h]

end FirstFault

namespace Mapper

/-- Whether a field can be mapped: it is neither computed nor the annotation. -/
def CanBeMapped (definition : FieldDefinition) : Prop :=
  definition.name ≠ annotationField ∧ definition.computed = false

instance : DecidablePred CanBeMapped := fun _ => inferInstanceAs (Decidable (_ ∧ _))

/-- Whether a mapping is used: its field can be mapped, and so can its property. -/
def Used (catalog : Catalog) (definitions : List FieldDefinition) (m : Mapping) : Prop :=
  ∃ definition ∈ definitions, definition.name = m.field ∧ CanBeMapped definition ∧
    ∃ property ∈ definition.properties, property.name = m.property ∧ catalog.admits property

/-- A mapping that is used is faulty when it is no constant and its expression cannot be read. -/
inductive Unreadable (catalog : Catalog) (config : MapperConfig)
    (definitions : List FieldDefinition) (m : Mapping) : MapperError → Prop where
  | intro {error : ExpressionError} (used : Used catalog definitions m)
      (path : ∀ text, ¬ config.Constant m.expression text)
      (parse : Expression.parse config.dialect m.expression = .error error) :
      Unreadable catalog config definitions m (.invalidMapping m.field (.expression error))

/-- Whether a field that can be mapped needs its main property mapped to raw data. -/
def Demanding (dialect : Dialect) (definition : FieldDefinition) : Prop :=
  CanBeMapped definition ∧
    (definition.required = true ∨ definition.name ∈ dialect.requiredFields)

/-- A demanding field is faulty when its main property has no mapping or a constant one. -/
inductive Unmet (config : MapperConfig) (definition : FieldDefinition) : MapperError → Prop where
  | unmapped (demanding : Demanding config.dialect definition)
      (h : ∀ m ∈ config.written, m.field = definition.name →
        m.property ≠ definition.mainProperty) :
      Unmet config definition
        (.invalidMapping definition.name (.unmapped definition.label definition.mainProperty))
  | constant {m : Mapping} {text : String} (demanding : Demanding config.dialect definition)
      (hm : m ∈ config.written) (hfield : m.field = definition.name)
      (hproperty : m.property = definition.mainProperty)
      (h : config.Constant m.expression text) :
      Unmet config definition (.invalidMapping definition.name (.constant definition.label))

variable {catalog : Catalog} {config : MapperConfig} {definitions : List FieldDefinition}

def error? {ε α : Type} : Except ε α → Option ε
  | .ok _ => none
  | .error error => some error

lemma error?_eq_some_iff {ε α : Type} {result : Except ε α} {error : ε} :
    error? result = some error ↔ result = .error error := by
  cases result <;> simp [error?]

theorem compile_eq_ok_iff {expression : String} {source : MappedSource} :
    compile config.dialect config.mark? expression = .ok source ↔
      config.Compiles expression source := by
  unfold compile
  constructor
  · intro h
    split at h
    · rename_i text htext
      obtain rfl := Except.ok.inj h
      exact .constant (MappingSource.classify_eq_constant_iff.mp htext)
    · rename_i path hpath
      obtain ⟨rfl, hconstant⟩ := MappingSource.classify_eq_path_iff.mp hpath
      split at h
      · rename_i compiled hcompiled
        obtain rfl := Except.ok.inj h
        exact .path hconstant hcompiled
      · cases h
  · intro h
    cases h with
    | constant h => rw [MappingSource.classify_eq_constant_iff.mpr h]
    | path h hparse => simp [MappingSource.classify_eq_path_iff.mpr ⟨rfl, h⟩, hparse]

theorem compile_eq_error_iff {expression : String} {error : ExpressionError} :
    compile config.dialect config.mark? expression = .error error ↔
      (∀ text, ¬ config.Constant expression text) ∧
        Expression.parse config.dialect expression = .error error := by
  unfold compile
  constructor
  · intro h
    split at h
    · cases h
    · rename_i path hpath
      obtain ⟨rfl, hconstant⟩ := MappingSource.classify_eq_path_iff.mp hpath
      split at h
      · cases h
      · rename_i other hother
        obtain rfl := Except.error.inj h
        exact ⟨hconstant, hother⟩
  · rintro ⟨hconstant, hparse⟩
    simp [MappingSource.classify_eq_path_iff.mpr ⟨rfl, hconstant⟩, hparse]

/-- What is wrong with an entry of a field of which some properties can be mapped. -/
def entryFault? (config : MapperConfig) (mappable : List PropertyDefinition)
    (entry : String × String) : Option ExpressionError :=
  (mappable.find? (·.name == entry.1)).bind fun _ =>
    error? (compile config.dialect config.mark? entry.2)

lemma error?_compileEntries (mappable : List PropertyDefinition)
    (entries : List (String × String)) :
    error? (compileEntries catalog config.dialect config.mark? mappable entries) =
      entries.findSome? (entryFault? config mappable) := by
  induction entries with
  | nil => rfl
  | cons entry rest ih =>
    obtain ⟨name, text⟩ := entry
    unfold compileEntries
    rw [List.findSome?_cons, ← ih, entryFault?]
    cases mappable.find? (·.name == name) with
    | none => rfl
    | some own =>
      simp only [Option.bind_some]
      cases compile config.dialect config.mark? text with
      | error error => rfl
      | ok source =>
        cases compileEntries catalog config.dialect config.mark? mappable rest <;> rfl

def mappingFault? (config : MapperConfig) (fields : List MappedField) (m : Mapping) :
    Option MapperError :=
  (fields.find? (·.definition.name == m.field)).bind fun field =>
    (entryFault? config field.mappable (m.property, m.expression)).map fun error =>
      .invalidMapping m.field (.expression error)

lemma mappingFault?_setMapped (name : String) (mapped : List MappedProperty)
    (fields : List MappedField) :
    mappingFault? config (setMapped name mapped fields) = mappingFault? config fields := by
  funext m
  simp only [mappingFault?, find?_setMapped]
  split
  · cases fields.find? (·.definition.name == m.field) <;> rfl
  · rfl

/-- Compiling a table fails with the first mapping that is wrong. -/
theorem error?_compileTable (entries : List (String × PropertyMappings))
    (fields : List MappedField) :
    error? (compileTable catalog config.dialect config.mark? entries fields) =
      (MappingTable.listEntries entries).findSome? (mappingFault? config fields) := by
  induction entries generalizing fields with
  | nil => rfl
  | cons entry rest ih =>
    obtain ⟨name, mappings⟩ := entry
    rw [MappingTable.listEntries_cons, List.findSome?_append, List.findSome?_map]
    unfold compileTable
    cases hfield : fields.find? (·.definition.name == name) with
    | none =>
      have hnone : mappings.entries.findSome?
          (mappingFault? config fields ∘ fun m => ⟨name, m.1, m.2⟩) = none := by
        simp [mappingFault?, hfield]
      rw [hnone, Option.none_or]
      exact ih fields
    | some field =>
      have hfirst : mappings.entries.findSome?
          (mappingFault? config fields ∘ fun m => ⟨name, m.1, m.2⟩) =
            (error? (compileEntries catalog config.dialect config.mark? field.mappable
              mappings.entries)).map fun error => .invalidMapping name (.expression error) := by
        rw [error?_compileEntries, List.map_findSome?]
        congr 1
        funext m
        simp [mappingFault?, hfield]
      rw [hfirst]
      cases hentries : compileEntries catalog config.dialect config.mark? field.mappable
          mappings.entries with
      | error error => simp [error?, hentries]
      | ok mapped =>
        simpa [error?, hentries, mappingFault?_setMapped] using ih (setMapped name mapped fields)

lemma find?_eq_some_iff_of_nodup {α : Type} {name : α → String} {items : List α}
    (hnames : (items.map name).Nodup) {key : String} {item : α} :
    items.find? (name · == key) = some item ↔ item ∈ items ∧ name item = key := by
  induction items with
  | nil => simp
  | cons head rest ih =>
    obtain ⟨hhead, hrest⟩ := List.nodup_cons.mp hnames
    by_cases hkey : name head = key
    · have hlater : item ∈ rest → name item ≠ key := by
        rintro hitem rfl
        exact hhead (hkey ▸ List.mem_map_of_mem hitem)
      simp only [List.find?_cons, hkey, beq_self_eq_true, Option.some.injEq, List.mem_cons]
      grind
    · simp only [List.find?_cons, beq_eq_false_iff_ne.mpr hkey, ih hrest, List.mem_cons]
      grind

lemma find?_mappableFields (hnames : (definitions.map FieldDefinition.name).Nodup) {name : String}
    {field : MappedField} :
    (mappableFields catalog definitions).find? (·.definition.name == name) = some field ↔
      ∃ definition ∈ definitions, definition.name = name ∧ CanBeMapped definition ∧
        field = ⟨definition, definition.properties.filter catalog.admits, []⟩ := by
  have hnodup : ((mappableFields catalog definitions).map (·.definition.name)).Nodup := by
    rw [mappableFields, List.map_map]
    exact hnames.sublist (List.filter_sublist.map _)
  rw [find?_eq_some_iff_of_nodup hnodup]
  simp only [mappableFields, List.mem_map, List.mem_filter, CanBeMapped]
  constructor
  · rintro ⟨⟨definition, ⟨hmem, hmappable⟩, rfl⟩, rfl⟩
    exact ⟨definition, hmem, rfl, by simpa using hmappable, rfl⟩
  · rintro ⟨definition, hmem, rfl, hmappable, rfl⟩
    exact ⟨⟨definition, ⟨hmem, by simpa using hmappable⟩, rfl⟩, rfl⟩

lemma mappingFault?_eq_some_iff (hnames : (definitions.map FieldDefinition.name).Nodup)
    (m : Mapping) (error : MapperError) :
    mappingFault? config (mappableFields catalog definitions) m = some error ↔
      Unreadable catalog config definitions m error := by
  simp only [mappingFault?, entryFault?, Option.bind_eq_some_iff, Option.map_eq_some_iff,
    find?_mappableFields hnames, error?_eq_some_iff, compile_eq_error_iff]
  constructor
  · rintro ⟨-, ⟨definition, hmem, hname, hmappable, rfl⟩, fault,
      ⟨property, hproperty, hpath, hparse⟩, rfl⟩
    have hfound := List.mem_filter.mp (List.mem_of_find?_eq_some hproperty)
    have hpropertyName : property.name = m.property := by
      simpa using List.find?_some hproperty
    exact .intro ⟨definition, hmem, hname, hmappable, property, hfound.1, hpropertyName,
      hfound.2⟩ hpath hparse
  · rintro ⟨⟨definition, hmem, hname, hmappable, property, hproperty, hpropertyName, hadmits⟩,
      hpath, hparse⟩
    have hsome : ((definition.properties.filter catalog.admits).find?
        (·.name == m.property)).isSome :=
      List.find?_isSome.mpr ⟨property, List.mem_filter.mpr ⟨hproperty, hadmits⟩,
        beq_iff_eq.mpr hpropertyName⟩
    obtain ⟨own, hown⟩ := Option.isSome_iff_exists.mp hsome
    exact ⟨_, ⟨definition, hmem, hname, hmappable, rfl⟩, _, ⟨own, hown, hpath, hparse⟩, rfl⟩

lemma mem_written_iff {m : Mapping} : m ∈ config.written ↔
    config.mappings.withoutBlanks.property? m.field m.property = some m.expression := by
  rw [MapperConfig.written, ← MappingTable.listed_withoutBlanks, MappingTable.mem_listed_iff]

def fieldFault? (config : MapperConfig) (definition : FieldDefinition) : Option MapperError :=
  if CanBeMapped definition ∧ isRequired config.dialect definition then
    (requiredFault? config.mark? config.mappings.withoutBlanks definition).map
      (.invalidMapping definition.name)
  else none

lemma fieldFault?_eq_some_iff (definition : FieldDefinition) (error : MapperError) :
    fieldFault? config definition = some error ↔ Unmet config definition error := by
  have hdemanding : CanBeMapped definition ∧ isRequired config.dialect definition ↔
      Demanding config.dialect definition := by
    simp [Demanding, isRequired]
  simp only [fieldFault?, requiredFault?]
  constructor
  · intro h
    split_ifs at h with hrequired
    have hd := hdemanding.mp hrequired
    obtain ⟨fault, hfault, rfl⟩ := Option.map_eq_some_iff.mp h
    split at hfault
    · rename_i hnone
      obtain rfl := Option.some.inj hfault
      refine .unmapped hd fun m hm hfield hproperty => ?_
      rw [mem_written_iff, hfield, hproperty, hnone] at hm
      cases hm
    · rename_i expression hexpression
      split_ifs at hfault with hconstant
      obtain rfl := Option.some.inj hfault
      cases hsource : MappingSource.classify config.mark? expression with
      | path source =>
        rw [hsource] at hconstant
        cases hconstant
      | constant text =>
        exact .constant (m := ⟨definition.name, definition.mainProperty, expression⟩) hd
          (mem_written_iff.mpr hexpression) rfl rfl
          (MappingSource.classify_eq_constant_iff.mp hsource)
  · intro h
    cases h with
    | unmapped hd h =>
      have hnone : config.mappings.withoutBlanks.property? definition.name
          definition.mainProperty = none := by
        refine Option.eq_none_iff_forall_ne_some.mpr fun expression hexpression => ?_
        exact h ⟨_, _, expression⟩ (mem_written_iff.mpr hexpression) rfl rfl
      simp [hdemanding.mpr hd, hnone]
    | constant hd hm hfield hproperty h =>
      rw [mem_written_iff, hfield, hproperty] at hm
      simp [hdemanding.mpr hd, hm, MappingSource.classify_eq_constant_iff.mpr h,
        MappingSource.isConstant]

lemma firstFault?_eq_findSome? (fields : List MappedField)
    (h : ∀ field ∈ fields, CanBeMapped field.definition) :
    firstFault? config.dialect config.mark? config.mappings.withoutBlanks fields =
      (fields.map MappedField.definition).findSome? (fieldFault? config) := by
  induction fields with
  | nil => rfl
  | cons field rest ih =>
    obtain ⟨hfield, hrest⟩ := List.forall_mem_cons.mp h
    unfold firstFault?
    rw [List.map_cons, List.findSome?_cons, ← ih hrest, fieldFault?]
    by_cases hrequired : isRequired config.dialect field.definition
    · simp only [hfield, hrequired, if_true, and_self]
      cases requiredFault? config.mark? config.mappings.withoutBlanks field.definition <;> rfl
    · simp [hrequired]

lemma findSome?_filter_canBeMapped (definitions : List FieldDefinition) :
    (definitions.filter CanBeMapped).findSome? (fieldFault? config) =
      definitions.findSome? (fieldFault? config) := by
  induction definitions with
  | nil => rfl
  | cons definition rest ih =>
    by_cases h : CanBeMapped definition
    · rw [List.filter_cons_of_pos (by simpa using h), List.findSome?_cons, List.findSome?_cons, ih]
    · have hnone : fieldFault? config definition = none := by simp [fieldFault?, h]
      rw [List.filter_cons_of_neg (by simpa using h), List.findSome?_cons, hnone, ih]

end Mapper

end RecordMapping

import Mathlib.Data.List.Induction
import Mathlib.Data.List.Nodup
import RecordMapping.Project.Config

namespace RecordMapping

def mergeOnto (fields : List FieldDefinition) (configured : List (String × FieldConfig)) :
    List FieldDefinition :=
  configured.foldl (fun fields entry => putField (entry.2.define entry.1) fields) fields

/-- Whether a configuration is the last one of its name. -/
def LastOf (name : String) (config : FieldConfig) (configured : List (String × FieldConfig)) :
    Prop :=
  ∃ earlier later, configured = earlier ++ (name, config) :: later ∧ name ∉ later.map Prod.fst

variable {name : String} {config : FieldConfig} {configured : List (String × FieldConfig)}
  {field old : FieldDefinition} {fields : List FieldDefinition}

lemma lastOf_append_singleton {last : String × FieldConfig} :
    LastOf name config (configured ++ [last]) ↔
      last = (name, config) ∨ last.1 ≠ name ∧ LastOf name config configured := by
  constructor
  · rintro ⟨earlier, later, heq, hlater⟩
    obtain rfl | ⟨middle, final, rfl⟩ := later.eq_nil_or_concat'
    · exact .inl (List.cons.inj (List.append_inj' heq rfl).2).1
    · rw [← List.cons_append, ← List.append_assoc] at heq
      obtain ⟨hconfigured, hlast⟩ := List.append_inj' heq rfl
      obtain rfl := (List.cons.inj hlast).1
      rw [List.map_append, List.mem_append, not_or] at hlater
      refine .inr ⟨fun hname => hlater.2 ?_, earlier, middle, hconfigured, hlater.1⟩
      simp [hname]
  · rintro (rfl | ⟨hne, earlier, later, rfl, hlater⟩)
    · exact ⟨configured, [], rfl, by simp⟩
    · refine ⟨earlier, later ++ [last], by simp, ?_⟩
      simpa [Ne.symm hne] using hlater

lemma names_putField (field : FieldDefinition) (fields : List FieldDefinition) :
    (putField field fields).map FieldDefinition.name =
      if field.name ∈ fields.map FieldDefinition.name then fields.map FieldDefinition.name
      else fields.map FieldDefinition.name ++ [field.name] := by
  induction fields with
  | nil => rfl
  | cons old rest ih =>
    by_cases h : old.name = field.name
    · simp [putField, h]
    · simp only [putField, if_neg h, List.map_cons, ih, List.mem_cons, Ne.symm h, false_or]
      split <;> rfl

lemma nodup_names_putField (h : (fields.map FieldDefinition.name).Nodup)
    (field : FieldDefinition) : ((putField field fields).map FieldDefinition.name).Nodup := by
  rw [names_putField]
  split
  · exact h
  · rename_i hnew
    simpa using h.concat hnew

lemma mem_putField (h : (fields.map FieldDefinition.name).Nodup) :
    old ∈ putField field fields ↔ old = field ∨ old.name ≠ field.name ∧ old ∈ fields := by
  induction fields with
  | nil => simp [putField]
  | cons first rest ih =>
    rw [List.map_cons, List.nodup_cons] at h
    obtain ⟨hfirst, hrest⟩ := h
    by_cases hname : first.name = field.name
    · have hothers (hmem : old ∈ rest) : old.name ≠ field.name := by
        intro hsame
        exact hfirst (hname.trans hsame.symm ▸ List.mem_map_of_mem hmem)
      rw [putField, if_pos hname, List.mem_cons, List.mem_cons]
      constructor
      · rintro (rfl | hmem)
        · exact .inl rfl
        · exact .inr ⟨hothers hmem, .inr hmem⟩
      · rintro (rfl | ⟨hne, rfl | hmem⟩)
        · exact .inl rfl
        · exact absurd hname hne
        · exact .inr hmem
    · rw [putField, if_neg hname, List.mem_cons, List.mem_cons, ih hrest]
      constructor
      · rintro (rfl | rfl | ⟨hne, hmem⟩)
        · exact .inr ⟨hname, .inl rfl⟩
        · exact .inl rfl
        · exact .inr ⟨hne, .inr hmem⟩
      · rintro (rfl | ⟨hne, rfl | hmem⟩)
        · exact .inr (.inl rfl)
        · exact .inl rfl
        · exact .inr (.inr ⟨hne, hmem⟩)

lemma mergeOnto_append_singleton (fields : List FieldDefinition)
    (configured : List (String × FieldConfig)) (last : String × FieldConfig) :
    mergeOnto fields (configured ++ [last]) =
      putField (last.2.define last.1) (mergeOnto fields configured) := by
  rw [mergeOnto, List.foldl_append]
  rfl

lemma names_mergeOnto (fields : List FieldDefinition) (configured : List (String × FieldConfig)) :
    (mergeOnto fields configured).map FieldDefinition.name =
      fields.map FieldDefinition.name ++ ((configured.map Prod.fst).filter fun name =>
        decide (name ∉ fields.map FieldDefinition.name)).eraseDups := by
  induction configured generalizing fields with
  | nil => simp [mergeOnto]
  | cons entry rest ih =>
    obtain ⟨name, config⟩ := entry
    have hnames := names_putField (config.define name) fields
    have hname : (config.define name).name = name := rfl
    have hstep : mergeOnto fields ((name, config) :: rest) =
        mergeOnto (putField (config.define name) fields) rest := rfl
    rw [hname] at hnames
    rw [hstep, ih, List.map_cons]
    by_cases hmem : name ∈ fields.map FieldDefinition.name
    · rw [hnames, if_pos hmem, List.filter_cons_of_neg (by simpa using hmem)]
    · rw [hnames, if_neg hmem, List.filter_cons_of_pos (by simpa using hmem),
        List.eraseDups_cons, List.filter_filter, List.append_assoc, List.singleton_append]
      refine congrArg (fun names => _ ++ name :: List.eraseDups names) ?_
      refine List.filter_congr fun other _ => ?_
      simp only [List.mem_append, List.mem_singleton, not_or]
      grind

lemma nodup_names_mergeOnto (h : (fields.map FieldDefinition.name).Nodup)
    (configured : List (String × FieldConfig)) :
    ((mergeOnto fields configured).map FieldDefinition.name).Nodup := by
  induction configured using List.reverseRecOn with
  | nil => exact h
  | append_singleton configured last ih =>
    rw [mergeOnto_append_singleton]
    exact nodup_names_putField ih _

lemma mem_mergeOnto (h : (fields.map FieldDefinition.name).Nodup)
    (configured : List (String × FieldConfig)) :
    field ∈ mergeOnto fields configured ↔
      (∃ name config, LastOf name config configured ∧ field = config.define name) ∨
      field ∈ fields ∧ field.name ∉ configured.map Prod.fst := by
  induction configured using List.reverseRecOn with
  | nil => simp [mergeOnto, LastOf]
  | append_singleton configured last ih =>
    rw [mergeOnto_append_singleton, mem_putField (nodup_names_mergeOnto h configured), ih]
    have hlast : (last.2.define last.1).name = last.1 := rfl
    constructor
    · rintro (rfl | ⟨hne, ⟨name, config, hof, rfl⟩ | ⟨hmem, hnew⟩⟩)
      · exact .inl ⟨last.1, last.2, lastOf_append_singleton.mpr (.inl rfl), rfl⟩
      · exact .inl ⟨name, config, lastOf_append_singleton.mpr (.inr ⟨Ne.symm hne, hof⟩), rfl⟩
      · rw [List.map_append, List.mem_append, not_or]
        exact .inr ⟨hmem, hnew, fun hsame => hne (List.mem_singleton.mp hsame)⟩
    · rintro (⟨name, config, hof, rfl⟩ | ⟨hmem, hnew⟩)
      · obtain rfl | ⟨hne, hof⟩ := lastOf_append_singleton.mp hof
        · exact .inl rfl
        · exact .inr ⟨Ne.symm hne, .inl ⟨name, config, hof, rfl⟩⟩
      · rw [List.map_append, List.mem_append, not_or] at hnew
        exact .inr ⟨fun hsame => hnew.2 (by simp [hsame, hlast]), .inr ⟨hmem, hnew.1⟩⟩

namespace EntityTypeConfig

/-- The names of an entity type are distinct and in a stable order: the base names, then the other
configured names in the order in which they first occur. A configured name is defined by its last
configuration, where the label falls back to the name and the properties to those of the field type,
which also gives the main property. A base field that is not configured stays as it is. -/
theorem definitions_merged (type : EntityTypeConfig) :
    let names := type.definitions.map FieldDefinition.name
    let base := ["id", "uuid", "title", "annotation"]
    names = base ++ ((type.fields.map Prod.fst).filter fun name =>
      decide (name ∉ base)).eraseDups ∧
    names.Nodup ∧
    (∀ name config, LastOf name config type.fields →
      ⟨name, config.label.getD name, config.fieldType, config.cardinality, config.required,
        config.computed, config.dateForm,
        config.properties.getD config.fieldType.defaultProperties,
        config.fieldType.mainProperty⟩ ∈ type.definitions) ∧
    ∀ field ∈ baseFields, field.name ∉ type.fields.map Prod.fst → field ∈ type.definitions := by
  have hbase : (baseFields.map FieldDefinition.name).Nodup := by decide
  refine ⟨names_mergeOnto baseFields type.fields, nodup_names_mergeOnto hbase type.fields, ?_, ?_⟩
  · intro name config hlast
    exact (mem_mergeOnto hbase type.fields).mpr (.inl ⟨name, config, hlast, rfl⟩)
  · intro field hfield hnew
    exact (mem_mergeOnto hbase type.fields).mpr (.inr ⟨hfield, hnew⟩)

section Movie

/-- A configured field of one value without label. -/
def plainField (fieldType : FieldType) : FieldConfig :=
  ⟨fieldType, none, .one, false, false, .datetime, none⟩

/-- A movie whose release is configured twice and whose title replaces a base field. -/
def movie : EntityTypeConfig :=
  ⟨"movie", none, false,
    [("released", plainField .timestamp), ("title", { plainField .text with label := some "Name" }),
      ("refs", plainField .entityReference), ("released", plainField .datetime)],
    .default, none⟩

/-- The release keeps its first place with its last configuration, and the title its base place. -/
theorem definitions_merged_movie :
    movie.definitions.map FieldDefinition.name =
      ["id", "uuid", "title", "annotation", "released", "refs"] ∧
    LastOf "released" (plainField .datetime) movie.fields ∧
    ⟨"released", "released", .datetime, .one, false, false, .datetime,
      FieldType.datetime.defaultProperties, "value"⟩ ∈ movie.definitions ∧
    FieldDefinition.base "uuid" "UUID" .uuid ∈ movie.definitions := by
  obtain ⟨hnames, -, hconfigured, hbase⟩ := definitions_merged movie
  have hlast : LastOf "released" (plainField .datetime) movie.fields :=
    ⟨movie.fields.dropLast, [], rfl, by decide⟩
  exact ⟨hnames.trans (by decide), hlast, hconfigured _ _ hlast, hbase _ (by decide) (by decide)⟩

end Movie

end EntityTypeConfig

end RecordMapping

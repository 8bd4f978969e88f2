import RecordMapping.Definition.Projects
import RecordMapping.Proofs.Definition.Structures

namespace RecordMapping

open Decode

lemma FieldType.takesBack (type : FieldType) :
    TakesBack decode (fun type => .string type.id) type :=
  takesBack_variant (fun type => by cases type <;> rfl) false type

lemma DateForm.takesBack (form : DateForm) : TakesBack decode encode form :=
  takesBack_variant (fun form => by cases form <;> rfl) false form

lemma takesBack_label (label : Option String) :
    TakesBack (optional text) (encodeOptional .string) label :=
  takesBack_optional (by simp) fun s _ => takesBack_text s

lemma PropertyDefinition.takesBack (property : PropertyDefinition) :
    TakesBack decode encode property := by
  have hdraft : draft false "PropertyDefinition" members Draft.put ⟨none, none, none, false⟩
      (.ofJson property.encode) =
        .ok ⟨some property.name, some property.dataType, property.label, property.readOnly⟩ := by
    refine draft_of_puts ?_ rfl (by decide)
    refine .cons rfl (.cons rfl ?_)
    refine .cons (put_of_takesBack (takesBack_label property.label) _) ?_
    exact .cons rfl .nil
  simp only [TakesBack, decode, hdraft]
  rfl

lemma FieldConfig.takesBack (config : FieldConfig) : TakesBack decode encode config := by
  have hproperties : TakesBack (optional (sequence PropertyDefinition.decode))
      (encodeOptional fun ps => .list (ps.map PropertyDefinition.encode)) config.properties :=
    takesBack_optional (by simp) fun ps _ =>
      takesBack_sequence fun property _ => property.takesBack
  have hdraft : draft false "FieldConfig" members Draft.put
      ⟨none, none, .one, false, false, .datetime, none⟩ (.ofJson config.encode) =
        .ok ⟨some config.fieldType, config.label, config.cardinality, config.required,
          config.computed, config.dateForm, config.properties⟩ := by
    refine draft_of_puts ?_ rfl (by decide)
    refine .cons (put_of_takesBack config.fieldType.takesBack _) ?_
    refine .cons (put_of_takesBack (takesBack_label config.label) _) ?_
    refine .cons (put_of_takesBack (takesBack_cardinality config.cardinality) _) ?_
    refine .cons rfl (.cons rfl ?_)
    refine .cons (put_of_takesBack config.dateForm.takesBack _) ?_
    exact .cons (put_of_takesBack hproperties _) .nil
  simp only [TakesBack, decode, hdraft]
  rfl

lemma Dialect.takesBack (dialect : Dialect) : TakesBack decode encode dialect :=
  takesBack_variant (fun dialect => by cases dialect <;> rfl) false dialect

lemma MappingTable.takesBack (table : MappingTable) : TakesBack decode encode table :=
  takesBack_dictionary fun _ _ => takesBack_dictionary fun _ _ => takesBack_text _

lemma MapperSection.takesBack (config : MapperSection) : TakesBack decode encode config := by
  have hdialect : TakesBack (optional Dialect.decode) (encodeOptional Dialect.encode)
      config.dialect :=
    takesBack_optional (by simp [Dialect.encode]) fun dialect _ => dialect.takesBack
  refine draft_of_puts ?_ rfl (by decide)
  refine .cons (put_of_takesBack hdialect _) ?_
  refine .cons (put_of_takesBack (takesBack_label config.constantMark) _) ?_
  exact .cons (put_of_takesBack (MappingTable.takesBack config.mappings) _) .nil

lemma MapperConfig.takesBack (config : MapperConfig) : TakesBack decode encode config := by
  refine draft_of_puts ?_ rfl (by decide)
  refine .cons (put_of_takesBack config.dialect.takesBack _) ?_
  refine .cons (put_of_takesBack (takesBack_label config.constantMark) _) ?_
  exact .cons (put_of_takesBack (MappingTable.takesBack config.mappings) _) .nil

namespace EntityValues

/-- Entity values whose documents can be read. -/
def Readable (values : EntityValues) : Prop :=
  ∀ field ∈ values.entries, ∀ delta ∈ field.2, ∀ property ∈ delta.entries, Shown property.2

lemma takesBack {values : EntityValues} (h : values.Readable) : TakesBack decode encode values :=
  takesBack_dictionary fun field hfield => takesBack_sequence fun delta hdelta =>
    takesBack_dictionary (h field hfield delta hdelta)

lemma readable_of_decode {datum : Datum} {values : EntityValues} (h : decode datum = .ok values) :
    values.Readable := by
  intro field hfield delta hdelta property hproperty
  obtain ⟨deltas, hdeltas⟩ := dictionary_ok h field hfield
  obtain ⟨properties, hproperties⟩ := sequence_ok hdeltas delta hdelta
  obtain ⟨document, hdocument⟩ := dictionary_ok hproperties property hproperty
  exact readsBack_value document property.2 hdocument

end EntityValues

lemma FileStorage.takesBack (kept : Bool) (file : FileStorage) :
    TakesBack (decode kept) encode file := by
  have hformat : TakesBack (optional (RecordFormat.decode kept))
      (encodeOptional RecordFormat.encode) file.format :=
    takesBack_optional (by simp [RecordFormat.encode]) fun format _ =>
      takesBack_variant (fun format => by cases format <;> rfl) kept format
  have hdraft : draft kept "FileStorageConfig" members (Draft.put kept) ⟨none, none, defaultIdKey⟩
      (.ofJson file.encode) = .ok ⟨some file.path, file.format, file.idKey⟩ := by
    refine draft_of_puts (.cons rfl ?_) rfl (by decide)
    exact .cons (put_of_takesBack hformat _) (.cons rfl .nil)
  simp only [TakesBack, decode, hdraft]
  rfl

lemma StorageConfig.takesBack (config : StorageConfig) : TakesBack decode encode config := by
  obtain ⟨file⟩ := config
  have hsplit : splitType none (Datum.ofMembers
      ((typeMember, .string fileType) :: file.encodeMembers)) =
        .ok (some (), Datum.ofMembers file.encodeMembers) := rfl
  have hfile : FileStorage.decode true (.mapping (Datum.ofMembers file.encodeMembers)) = .ok file :=
    file.takesBack true
  have hdecode : decode (.ofJson (encode (.file file))) =
      (do return .file (← FileStorage.decode true
        (.mapping (Datum.ofMembers file.encodeMembers)))) := by
    simp only [encode, Datum.ofJson, decode, hsplit]
    rfl
  rw [TakesBack, hdecode, hfile]
  rfl

lemma Comparison.takesBack (comparison : Comparison) :
    TakesBack decode (fun comparison => .string comparison.id) comparison :=
  takesBack_variant (fun comparison => by cases comparison <;> rfl) false comparison

lemma RecordFilter.takesBack {filter : RecordFilter} (h : Shown filter.value) :
    TakesBack decode encode filter := by
  have hdraft : draft false "Filter" members Draft.put ⟨none, .equal, none⟩
      (.ofJson filter.encode) = .ok ⟨some filter.field, filter.comparison, some filter.value⟩ := by
    refine draft_of_puts (.cons rfl ?_) rfl (by decide)
    refine .cons (put_of_takesBack filter.comparison.takesBack _) ?_
    exact .cons (put_of_takesBack h _) .nil
  simp only [TakesBack, decode, hdraft]
  rfl

lemma RecordFilter.shown_of_decode {datum : Datum} {filter : RecordFilter}
    (h : decode datum = .ok filter) : Shown filter.value := by
  obtain ⟨filled, hfilled, h⟩ := bind_ok h
  obtain ⟨field, -, h⟩ := bind_ok h
  obtain ⟨value, hvalue, h⟩ := bind_ok h
  cases h
  have hshown : ∀ value ∈ filled.value, Shown value := by
    refine draft_invariant (p := fun draft => ∀ value ∈ draft.value, Shown value)
      (fun draft name datum next hdraft hput => ?_) hfilled (by simp)
    unfold Draft.put at hput
    split at hput
    · obtain ⟨field, -, rfl⟩ := bind_some_ok hput
      exact hdraft
    · obtain ⟨comparison, -, rfl⟩ := bind_some_ok hput
      exact hdraft
    · obtain ⟨value, hread, rfl⟩ := bind_some_ok hput
      rintro _ ⟨⟩
      exact readsBack_value _ _ hread
    · cases hput
  exact hshown value (required_ok hvalue)

lemma SortKey.takesBack (key : SortKey) : TakesBack decode encode key := by
  have hdraft : draft false "Sort" members Draft.put ⟨none, false⟩ (.ofJson key.encode) =
      .ok ⟨some key.field, key.descending⟩ :=
    draft_of_puts (.cons rfl (.cons rfl .nil)) rfl (by decide)
  simp only [TakesBack, decode, hdraft]
  rfl

namespace RecordQuery

/-- A query whose documents can be read and whose numbers are words. -/
structure Readable (query : RecordQuery) : Prop where
  filters : ∀ filter ∈ query.filters, Shown filter.value
  offset : query.offset < wordEnd
  limit : ∀ n ∈ query.limit, n < wordEnd

lemma takesBack {query : RecordQuery} (h : query.Readable) : TakesBack decode encode query := by
  have hfilters : TakesBack (sequence RecordFilter.decode)
      (fun filters => .list (filters.map RecordFilter.encode)) query.filters :=
    takesBack_sequence fun filter hfilter => RecordFilter.takesBack (h.filters filter hfilter)
  have hkeys : TakesBack (sequence SortKey.decode) (fun keys => .list (keys.map SortKey.encode))
      query.sort := takesBack_sequence fun key _ => key.takesBack
  have hlimit : TakesBack (optional count) (encodeOptional fun n : ℕ => .ofInt n) query.limit :=
    takesBack_optional (by simp [Json.ofInt]) fun n hn => takesBack_count (h.limit n hn)
  refine draft_of_puts ?_ rfl (by decide)
  refine .cons (put_of_takesBack hfilters _) ?_
  refine .cons (put_of_takesBack hkeys _) ?_
  refine .cons (put_of_takesBack (takesBack_count h.offset) _) ?_
  exact .cons (put_of_takesBack hlimit _) .nil

lemma readable_of_decode {datum : Datum} {query : RecordQuery} (h : decode datum = .ok query) :
    query.Readable := by
  refine draft_invariant (fun draft name datum next hdraft hput => ?_) h
    ⟨List.forall_mem_nil _, by decide, fun n hn => by cases hn⟩
  unfold put at hput
  split at hput
  · obtain ⟨filters, hread, rfl⟩ := bind_some_ok hput
    refine ⟨fun filter hfilter => ?_, hdraft.offset, hdraft.limit⟩
    obtain ⟨document, hdocument⟩ := sequence_ok hread filter hfilter
    exact RecordFilter.shown_of_decode hdocument
  · obtain ⟨keys, -, rfl⟩ := bind_some_ok hput
    exact ⟨hdraft.filters, hdraft.offset, hdraft.limit⟩
  · obtain ⟨n, hread, rfl⟩ := bind_some_ok hput
    exact ⟨hdraft.filters, count_ok hread, hdraft.limit⟩
  · obtain ⟨limit, hread, rfl⟩ := bind_some_ok hput
    refine ⟨hdraft.filters, hdraft.offset, fun n hn => ?_⟩
    obtain ⟨document, hdocument⟩ := optional_ok hread n hn
    exact count_ok hdocument
  · cases hput

end RecordQuery

/-- Two objects that are the same but for the order of the members of one of their members. -/
inductive Json.ReorderedIn (name : String) : Json → Json → Prop where
  | intro (before after : List Member) {first second : List Member} (h : first.Perm second) :
      ReorderedIn name (.object (before ++ (name, .object first) :: after))
        (.object (before ++ (name, .object second) :: after))

namespace ProjectConfig

/-- A project whose settings can be read. -/
def Readable (project : ProjectConfig) : Prop :=
  ∀ entry ∈ project.settings.entries, Shown entry.2

/-- A project is written with its settings in any order. -/
def Writes (project : ProjectConfig) (document : Json) : Prop :=
  ∃ listed, listed.Perm project.settings.entries ∧ document = project.encodeListed listed

lemma writes_encode (project : ProjectConfig) : project.Writes project.encode :=
  ⟨project.settings.entries, .refl _, rfl⟩

lemma encodeListed_eq (project : ProjectConfig) (listed : List (String × Json)) :
    project.encodeListed listed =
      .object
        [("name", .string project.name), ("version", .string project.version),
          ("default_dialect", project.dialect.encode), ("vars", .object listed)] := by
  have hlisted : (listed.map fun entry => (entry.1, id entry.2)) = listed := List.map_id listed
  rw [encodeListed, Dictionary.encodeListed, hlisted]

lemma writes_iff_reorderedIn {project : ProjectConfig} {first : Json} (h : project.Writes first)
    (second : Json) : project.Writes second ↔ first.ReorderedIn "vars" second := by
  obtain ⟨listed, hlisted, rfl⟩ := h
  constructor
  · rintro ⟨other, hother, rfl⟩
    rw [encodeListed_eq, encodeListed_eq]
    exact .intro [("name", .string project.name), ("version", .string project.version),
      ("default_dialect", project.dialect.encode)] [] (hlisted.trans hother.symm)
  · intro hreordered
    rw [encodeListed_eq] at hreordered
    generalize hfirst : Json.object _ = first at hreordered
    obtain ⟨before, after, hperm⟩ := hreordered
    have hmembers := Json.object.inj hfirst
    match before with
    | [] => simp at hmembers
    | [_] => simp at hmembers
    | [_, _] => simp at hmembers
    | [_, _, _] =>
      simp only [List.cons_append, List.nil_append, List.cons.injEq, Prod.mk.injEq, true_and,
        Json.object.injEq] at hmembers
      obtain ⟨rfl, rfl, rfl, rfl, rfl⟩ := hmembers
      exact ⟨_, hperm.symm.trans hlisted, (encodeListed_eq _ _).symm⟩
    | _ :: _ :: _ :: _ :: _ => simp at hmembers

lemma decode_encodeListed {project : ProjectConfig} {listed : List (String × Json)}
    (hlisted : listed.Perm project.settings.entries) (h : project.Readable) :
    decode (.ofJson (project.encodeListed listed)) = .ok project := by
  have hsettings : TakesBack (dictionary value) (fun _ => Dictionary.encodeListed id listed)
      project.settings := dictionary_encodeListed hlisted h
  have hdraft : draft false "ProjectConfig" members Draft.put
      ⟨none, defaultVersion, .simple, .empty⟩ (.ofJson (project.encodeListed listed)) =
        .ok ⟨some project.name, project.version, project.dialect, project.settings⟩ := by
    refine draft_of_puts (.cons rfl (.cons rfl ?_)) rfl (by decide)
    refine .cons (put_of_takesBack project.dialect.takesBack _) ?_
    exact .cons (put_of_takesBack hsettings _) .nil
  simp only [decode, hdraft]
  rfl

lemma readable_of_decode {datum : Datum} {project : ProjectConfig} (h : decode datum = .ok project) :
    project.Readable := by
  obtain ⟨filled, hfilled, h⟩ := bind_ok h
  obtain ⟨name, -, h⟩ := bind_ok h
  cases h
  refine draft_invariant
    (p := fun draft : Draft => ∀ entry ∈ draft.settings.entries, Shown entry.2)
    (fun draft name datum next hdraft hput => ?_) hfilled (List.forall_mem_nil _)
  unfold Draft.put at hput
  split at hput
  · obtain ⟨name, -, rfl⟩ := bind_some_ok hput
    exact hdraft
  · obtain ⟨version, -, rfl⟩ := bind_some_ok hput
    exact hdraft
  · obtain ⟨dialect, -, rfl⟩ := bind_some_ok hput
    exact hdraft
  · obtain ⟨settings, hread, rfl⟩ := bind_some_ok hput
    intro entry hentry
    obtain ⟨datum, hdatum⟩ := dictionary_ok hread entry hentry
    exact readsBack_value datum entry.2 hdatum
  · cases hput

end ProjectConfig

def markMember : String := "constant_prefix"

/-- The names of the members of a mapper configuration, also of one in an entity type. -/
def mapperMembers : List String := ["dialect", markMember, "field_mappings"]

/-- A mark of null switches constants off for good, and a mark that is not given is the default one
from then on. -/
def KeepsMark {α : Type} (read : Datum → Decoded α) (write : α → Json)
    (mark : α → Option String) : Prop :=
  ∀ document config, read (.ofJson document) = .ok config →
    (given? mapperMembers markMember document = some .null →
      mark config = none ∧ (write config).member? markMember = some .null) ∧
    (given? mapperMembers markMember document = none →
      mark config = some "+" ∧ (write config).member? markMember = some (.string "+"))

/-- A structure keeps its mark if the member of the mark sets it and no other does. -/
lemma keepsMark_of_draft {α : Type} {put : α → String → Datum → Decoded (Option α)}
    {mark : α → Option String} {write : α → Json} {structure_ : String} {rules : Members}
    {start : α} (set : α → Option String → α) (hmark : ∀ draft m, mark (set draft m) = m)
    (hput : ∀ draft datum,
      put draft markMember datum = (do return some (set draft (← optional text datum))))
    (hframe : ∀ draft other datum next, other ≠ markMember →
      put draft other datum = .ok (some next) → mark next = mark draft)
    (hrules : rules.names = mapperMembers) (hstart : mark start = some "+")
    (hwrite : ∀ config, (write config).member? markMember =
      some (encodeOptional .string (mark config))) :
    KeepsMark (draft false structure_ rules put start) write mark := by
  intro document config h
  obtain ⟨members, hfill, hgiven⟩ := exists_fill h
  obtain ⟨hsome, hnone⟩ := hgiven markMember
  rw [hrules] at hsome hnone
  rw [hwrite]
  constructor
  · intro hnull
    have hoff : mark config = none := by
      refine fill_of_mem hframe (fun draft datum hunknown => ?_) (fun draft next hnext => ?_) hfill
        (List.mem_map_of_mem (hsome .null hnull))
      · obtain ⟨m, -, h⟩ := bind_ok ((hput draft datum).symm.trans hunknown)
        cases h
      · obtain rfl : set draft none = next :=
          Option.some.inj (Except.ok.inj ((hput draft .null).symm.trans hnext))
        exact hmark draft none
    exact ⟨hoff, by rw [hoff]; rfl⟩
  · intro hmissing
    have hdefault : mark config = some "+" := by
      rw [← hstart]
      refine fill_of_missing hframe hfill fun entry hentry => ?_
      obtain ⟨member, hmember, rfl⟩ := List.mem_map.mp hentry
      exact hnone hmissing member hmember
    exact ⟨hdefault, by rw [hdefault]; rfl⟩

lemma MapperSection.keepsMark : KeepsMark decode encode constantMark := by
  refine keepsMark_of_draft (fun config mark => { config with constantMark := mark })
    (fun _ _ => rfl) (fun _ _ => rfl) ?_ rfl rfl fun _ => rfl
  intro draft other datum next hother hput
  unfold put at hput
  split at hput
  · obtain ⟨dialect, -, rfl⟩ := bind_some_ok hput
    rfl
  · exact absurd rfl hother
  · obtain ⟨mappings, -, rfl⟩ := bind_some_ok hput
    rfl
  · cases hput

lemma MapperConfig.keepsMark : KeepsMark decode encode constantMark := by
  refine keepsMark_of_draft (fun config mark => { config with constantMark := mark })
    (fun _ _ => rfl) (fun _ _ => rfl) ?_ rfl rfl fun _ => rfl
  intro draft other datum next hother hput
  unfold put at hput
  split at hput
  · obtain ⟨dialect, -, rfl⟩ := bind_some_ok hput
    rfl
  · exact absurd rfl hother
  · obtain ⟨mappings, -, rfl⟩ := bind_some_ok hput
    rfl
  · cases hput

/-- What is accepted is read again from what is written for it, and just the readable values are. -/
def Settles {α : Type} (read : Datum → Decoded α) (write : α → Json) (readable : α → Prop) : Prop :=
  ReadsBack read write ∧ ∀ value, TakesBack read write value ↔ readable value

lemma settles_of_readable {α : Type} {read : Datum → Decoded α} {write : α → Json}
    {readable : α → Prop} (hread : ∀ datum value, read datum = .ok value → readable value)
    (hback : ∀ value, readable value → TakesBack read write value) :
    Settles read write readable := by
  refine ⟨fun datum value h => hback value (hread datum value h), fun value => ?_⟩
  exact ⟨fun h => hread _ value h, hback value⟩

lemma settles_of_takesBack {α : Type} {read : Datum → Decoded α} {write : α → Json}
    (h : ∀ value, TakesBack read write value) : Settles read write fun _ => True :=
  settles_of_readable (fun _ _ _ => trivial) fun value _ => h value

/-- What is written for a definition that was accepted, in JSON or YAML, is read as the same
definition, and so it is written identically from then on. A project is written with its settings in
any order; every one of its documents is read as the project, and they are the same but for that
order. Only documents with repeated names and numbers of a query that are no words cannot be read
from what is written. Constant marks stay switched off or become the default one, and storage says
its type. -/
theorem definitions_settle :
    (∀ datum project, ProjectConfig.decode datum = .ok project →
      project.Writes project.encode ∧
      ∀ first, project.Writes first →
        ProjectConfig.decode (.ofJson first) = .ok project ∧
        ∀ second, project.Writes second ↔ first.ReorderedIn "vars" second) ∧
    Settles ProjectConfig.decode ProjectConfig.encode ProjectConfig.Readable ∧
    Settles FieldConfig.decode FieldConfig.encode (fun _ => True) ∧
    Settles MapperSection.decode MapperSection.encode (fun _ => True) ∧
    Settles MapperConfig.decode MapperConfig.encode (fun _ => True) ∧
    Settles MappingTable.decode MappingTable.encode (fun _ => True) ∧
    Settles PropertyDefinition.decode PropertyDefinition.encode (fun _ => True) ∧
    Settles DateForm.decode DateForm.encode (fun _ => True) ∧
    Settles Decode.cardinality Cardinality.encode (fun _ => True) ∧
    Settles RecordQuery.decode RecordQuery.encode RecordQuery.Readable ∧
    Settles RecordFilter.decode RecordFilter.encode (fun filter => Shown filter.value) ∧
    Settles StorageConfig.decode StorageConfig.encode (fun _ => True) ∧
    (∀ kept, Settles (FileStorage.decode kept) FileStorage.encode fun _ => True) ∧
    Settles EntityValues.decode EntityValues.encode EntityValues.Readable ∧
    KeepsMark MapperSection.decode MapperSection.encode MapperSection.constantMark ∧
    KeepsMark MapperConfig.decode MapperConfig.encode MapperConfig.constantMark ∧
    ∀ config : StorageConfig, config.encode.member? StorageConfig.typeMember =
      some (.string StorageConfig.fileType) := by
  have hproject : Settles ProjectConfig.decode ProjectConfig.encode ProjectConfig.Readable :=
    settles_of_readable (fun _ _ => ProjectConfig.readable_of_decode) fun project hreadable =>
      ProjectConfig.decode_encodeListed (.refl _) hreadable
  have hquery : Settles RecordQuery.decode RecordQuery.encode RecordQuery.Readable :=
    settles_of_readable (fun _ _ => RecordQuery.readable_of_decode) fun _ => RecordQuery.takesBack
  have hfilter : Settles RecordFilter.decode RecordFilter.encode
      (fun filter => Shown filter.value) :=
    settles_of_readable (fun _ _ => RecordFilter.shown_of_decode) fun _ => RecordFilter.takesBack
  have hvalues : Settles EntityValues.decode EntityValues.encode EntityValues.Readable :=
    settles_of_readable (fun _ _ => EntityValues.readable_of_decode) fun _ => EntityValues.takesBack
  refine ⟨?_, hproject, settles_of_takesBack FieldConfig.takesBack,
    settles_of_takesBack MapperSection.takesBack, settles_of_takesBack MapperConfig.takesBack,
    settles_of_takesBack MappingTable.takesBack, settles_of_takesBack PropertyDefinition.takesBack,
    settles_of_takesBack DateForm.takesBack, settles_of_takesBack takesBack_cardinality,
    hquery, hfilter, settles_of_takesBack StorageConfig.takesBack,
    fun kept => settles_of_takesBack (FileStorage.takesBack kept), hvalues,
    MapperSection.keepsMark, MapperConfig.keepsMark, ?_⟩
  · intro datum project hread
    refine ⟨project.writes_encode, fun first hfirst => ?_⟩
    refine ⟨?_, ProjectConfig.writes_iff_reorderedIn hfirst⟩
    obtain ⟨listed, hlisted, rfl⟩ := hfirst
    exact ProjectConfig.decode_encodeListed hlisted (ProjectConfig.readable_of_decode hread)
  · rintro ⟨file⟩
    rfl

/-- A project with two settings in either order, a section that switches constants off, and storage
that leaves out all it can. -/
theorem definitions_settle_off :
    ProjectConfig.decode (.ofJson (.object
      [("name", .string "films"), ("vars", .object [("b", .null), ("a", .bool true)])])) =
        .ok ⟨"films", "0.1.0", .simple, .ofList [("a", .bool true), ("b", .null)]⟩ ∧
    ProjectConfig.decode (.ofJson (ProjectConfig.encodeListed [("b", .null), ("a", .bool true)]
      ⟨"films", "0.1.0", .simple, .ofList [("a", .bool true), ("b", .null)]⟩)) =
        .ok ⟨"films", "0.1.0", .simple, .ofList [("a", .bool true), ("b", .null)]⟩ ∧
    MapperSection.decode (.ofJson (.object [("constant_prefix", .null)])) =
      .ok ⟨none, none, .empty⟩ ∧
    MapperSection.decode (.ofJson (MapperSection.encode ⟨none, none, .empty⟩)) =
      .ok ⟨none, none, .empty⟩ ∧
    StorageConfig.decode (.ofJson (.object [("path", .string "a"), ("type", .string "file")])) =
      .ok (.file ⟨"a", none, "id"⟩) ∧
    StorageConfig.decode (.ofJson (StorageConfig.encode (.file ⟨"a", none, "id"⟩))) =
      .ok (.file ⟨"a", none, "id"⟩) := by
  obtain ⟨hproject, -, -, hsection, -, -, -, -, -, -, -, hstorage, -⟩ := definitions_settle
  have hfilms : ProjectConfig.decode (.ofJson (.object
      [("name", .string "films"), ("vars", .object [("b", .null), ("a", .bool true)])])) =
        .ok ⟨"films", "0.1.0", .simple, .ofList [("a", .bool true), ("b", .null)]⟩ := rfl
  have hoff : MapperSection.decode (.ofJson (.object [("constant_prefix", .null)])) =
      .ok ⟨none, none, .empty⟩ := rfl
  have hfile : StorageConfig.decode
      (.ofJson (.object [("path", .string "a"), ("type", .string "file")])) =
        .ok (.file ⟨"a", none, "id"⟩) := rfl
  obtain ⟨-, hfirst⟩ := hproject _ _ hfilms
  have hswapped := hfirst _ ⟨[("b", .null), ("a", .bool true)], .swap _ _ _, rfl⟩
  exact ⟨hfilms, hswapped.1, hoff, hsection.1 _ _ hoff, hfile, hstorage.1 _ _ hfile⟩

end RecordMapping

import RecordMapping.Proofs.Mapping.Recoverable

/-!
# From values to a document and back

A document that was created from recoverable values gives exactly these values back, with the
constants of every field put into its deltas. Each property finds its values at the positions of the
deltas that they came from, so lining the properties up makes the same deltas again.
-/

namespace RecordMapping

namespace Mapper

def constantOf (field : MappedField) (property : MappedProperty) : Option Json :=
  property.constant?.map fun text =>
    normalize property.kind field.definition.dateForm (.string text)

def addConstants (field : MappedField) (delta : Delta) : Delta :=
  field.mapped.foldl (fun d property => d.insert? property.name (constantOf field property)) delta

/-- The deltas of a field with constants: its deltas with the constants put in, or one delta of the
constants alone. -/
def constantDeltas? (values : EntityValues) (field : MappedField) : Option (List Delta) :=
  if (constants field.mapped).isEmpty then none
  else some (((values.find? field.definition.name).getD [.empty]).map (addConstants field))

/-- Entity values with the normalized constants of all fields put in. -/
def withConstants (mapper : Mapper) (values : EntityValues) : EntityValues :=
  mapper.fields.foldl
    (fun result field => result.insert? field.definition.name (constantDeltas? values field)) values

section Constants

variable {field : MappedField} {dialect : Dialect}

lemma find?_addConstants (hc : Compiled dialect field.mapped) (delta : Delta) (name : String) :
    (addConstants field delta).find? name =
      ((field.mapped? name).bind (constantOf field)).or (delta.find? name) :=
  Dictionary.find?_foldl_insert? MappedProperty.name (constantOf field)
    (pairwise_of_nodup_names hc.nodup_names _) delta name

lemma addConstants_of_isEmpty (hc : Compiled dialect field.mapped)
    (h : (constants field.mapped).isEmpty) (delta : Delta) : addConstants field delta = delta := by
  apply Dictionary.ext_find?
  intro name
  rw [find?_addConstants hc]
  cases hname : field.mapped? name with
  | none => rfl
  | some property =>
    have hnone := constants_isEmpty_iff.mp h property (mem_of_mapped? hname).1
    simp [constantOf, hnone]

lemma normalizeDelta_overlaid (hc : Compiled dialect field.mapped) {delta : Delta}
    (hnormal : ∀ name value property, delta.find? name = some value →
      field.mapped? name = some property →
      normalize property.kind field.definition.dateForm value = value) :
    normalizeDelta field (overlaid field.mapped delta) = addConstants field delta := by
  apply Dictionary.ext_find?
  intro name
  rw [find?_normalizeDelta hc, find?_addConstants hc]
  cases hname : field.mapped? name with
  | none => rfl
  | some property =>
    simp only [Option.bind_some, constantOf]
    cases property.constant? with
    | some text => rfl
    | none =>
      cases hvalue : delta.find? name with
      | none => rfl
      | some value => simp [hnormal name value property hvalue hname]

end Constants

lemma find?_withConstants {mapper : Mapper} {dialect : Dialect} (hr : Ready dialect mapper.fields)
    (values : EntityValues) (name : String) :
    (mapper.withConstants values).find? name =
      ((mapper.field? name).bind (constantDeltas? values)).or (values.find? name) := by
  have hfirst : mapper.fields.Pairwise fun a b => a.definition.name = b.definition.name →
      constantDeltas? values b = none :=
    hr.shadowed.imp fun hbare hname => by
      rw [constantDeltas?, hbare hname]
      rfl
  exact Dictionary.find?_foldl_insert? (fun field : MappedField => field.definition.name)
    (constantDeltas? values) hfirst values name

lemma filter_eq_nil_of_deltaAt {deltas : List Delta} (h : ∀ i, deltaAt deltas i = .empty) :
    (deltas.filter fun delta => !delta.isEmpty) = [] := by
  rw [List.filter_eq_nil_iff]
  intro delta hdelta
  obtain ⟨i, hi⟩ := List.getElem?_of_mem hdelta
  have hempty := h i
  rw [deltaAt, hi, Option.getD_some] at hempty
  rw [hempty]
  simp [Dictionary.isEmpty, Dictionary.empty]

/-- Lists with the same delta at each position differ in empty deltas at the end only. -/
lemma filter_eq_of_deltaAt {a b : List Delta} (h : ∀ i, deltaAt a i = deltaAt b i) :
    (a.filter fun delta => !delta.isEmpty) = b.filter fun delta => !delta.isEmpty := by
  induction a generalizing b with
  | nil => exact (filter_eq_nil_of_deltaAt fun i => (h i).symm).symm
  | cons delta a ih =>
    cases b with
    | nil => exact filter_eq_nil_of_deltaAt h
    | cons delta' b =>
      have hhead : delta = delta' := h 0
      rw [List.filter_cons, List.filter_cons, hhead, ih fun i => h (i + 1)]

lemma filter_isKept_eq {name : String} {found given : Option Json}
    (h : found.getD .null = given.getD .null)
    (hkept : ∀ value, given = some value → isKept name value) :
    found.filter (isKept name) = given := by
  cases given with
  | none =>
    cases found with
    | none => rfl
    | some value =>
      obtain rfl : value = .null := h
      rfl
  | some value =>
    have hk := hkept value rfl
    cases found with
    | none =>
      obtain rfl : Json.null = value := h
      exact absurd rfl (isKept_iff.mp hk).1
    | some value' =>
      obtain rfl : value' = value := h
      exact Option.filter_some_pos hk

lemma Storable.isKept {field : MappedField} {property : MappedProperty} {value : Json}
    (h : Storable field property value) : isKept property.name value :=
  isKept_iff.mpr ⟨h.present, h.referring⟩

lemma find?_deltaAt (deltas : List Delta) (i : Nat) (name : String) :
    (deltaAt deltas i).find? name = deltas[i]?.bind (Dictionary.find? name) := by
  rw [deltaAt]
  cases deltas[i]? <;> rfl

lemma Complete.find?_eq_none {field : MappedField} {dialect : Dialect}
    (hc : Compiled dialect field.mapped) {deltas : List Delta} (h : Complete field deltas)
    {name : String}
    (hname : ∀ property, field.mapped? name = some property → property.expression? = none)
    {delta : Delta} (hdelta : delta ∈ deltas) : delta.find? name = none := by
  rw [Option.eq_none_iff_forall_ne_some]
  intro value hvalue
  obtain ⟨property, hp, rfl, expression, he⟩ := h.known delta hdelta name value hvalue
  rw [hname property (hc.mapped?_eq hp)] at he
  cases he

lemma Complete.find?_deltaAt {field : MappedField} {dialect : Dialect}
    (hc : Compiled dialect field.mapped) {deltas : List Delta} (h : Complete field deltas) (i : Nat)
    (name : String) :
    (deltaAt deltas i).find? name = (field.mapped? name).bind fun property =>
      property.expression?.bind fun _ => (given property.name deltas)[i]? := by
  have habsent : (∀ property, field.mapped? name = some property → property.expression? = none) →
      deltas[i]?.bind (Dictionary.find? name) = none := by
    intro hnone
    rw [Option.bind_eq_none_iff]
    intro delta hdelta
    exact h.find?_eq_none hc hnone (List.mem_of_getElem? hdelta)
  rw [Mapper.find?_deltaAt]
  cases hname : field.mapped? name with
  | none =>
    apply habsent
    intro property hsome
    rw [hname] at hsome
    cases hsome
  | some property =>
    obtain ⟨hp, rfl⟩ := mem_of_mapped? hname
    rw [Option.bind_some]
    cases he : property.expression? with
    | none =>
      apply habsent
      intro property' hsome
      obtain rfl := Option.some.inj (hname.symm.trans hsome)
      exact he
    | some expression => exact (h.getElem?_given hp he i).symm

lemma find?_deltaAt_nil (field : MappedField) (i : Nat) (name : String) :
    (deltaAt [] i).find? name = (field.mapped? name).bind fun property =>
      property.expression?.bind fun _ => (given property.name [])[i]? := by
  cases field.mapped? name with
  | none => rfl
  | some property =>
    rw [Option.bind_some]
    cases property.expression? with
    | none => rfl
    | some expression => rfl

def deltasOf (values : EntityValues) (field : MappedField) : List Delta :=
  (values.find? field.definition.name).getD []

section Document

variable {mapper : Mapper} {values : EntityValues} {raw : Json} {field : MappedField}

lemma Recoverable.deltasOf_eq_nil_or_complete (hv : Recoverable mapper values)
    (hfield : mapper.field? field.definition.name = some field) :
    deltasOf values field = [] ∨ Complete field (deltasOf values field) := by
  rw [deltasOf]
  cases hfind : values.find? field.definition.name with
  | none => exact Or.inl rfl
  | some deltas => exact Or.inr (hv.complete_of_find? hfield hfind)

theorem keptAt_create (hr : Ready .simple mapper.fields) (hv : Recoverable mapper values)
    (h : mapper.create values = .ok raw) (hf : field ∈ mapper.fields) {property : MappedProperty}
    (hp : property ∈ field.mapped) (i : Nat) :
    keptAt raw i property =
      property.expression?.bind fun _ => (given property.name (deltasOf values field))[i]? := by
  cases he : property.expression? with
  | none => rw [keptAt, he, Option.bind_none, Option.bind_none]
  | some expression =>
    obtain ⟨source, hparse⟩ := (hr.compiled field hf).parsed property hp expression he
    obtain ⟨plan, hplan⟩ : ∃ plan, expression.plan? = some plan := by
      obtain ⟨path, -, rfl⟩ := Expression.parse_simple hparse
      exact ⟨path.plan, rfl⟩
    have hproperty : property.plan? = some plan := by
      rw [MappedProperty.plan?, he, Option.bind_some, hplan]
    have hne := Expression.plan_ne_nil hparse hplan
    rw [keptAt, he, Option.bind_some, Expression.evaluate_eq_resolve hparse hplan]
    refine filter_isKept_eq (getD_resolve_create hr hv h hf hp hproperty hne i) ?_
    intro value hvalue
    exact (hv.storable_givenTo hr hf hp (List.mem_of_getElem? hvalue)).isKept

/-- The deltas found in the document are those that it was created from. -/
theorem foundDeltas_create (hr : Ready .simple mapper.fields) (hv : Recoverable mapper values)
    (h : mapper.create values = .ok raw)
    (hfield : mapper.field? field.definition.name = some field) :
    foundDeltas field.mapped raw = deltasOf values field := by
  have hf := (mem_of_field? hfield).1
  have hc := hr.compiled field hf
  have hcomplete := hv.deltasOf_eq_nil_or_complete hfield
  have hsame : ∀ i, deltaAt (lineUp raw field.mapped []) i = deltaAt (deltasOf values field) i := by
    intro i
    apply Dictionary.ext_find?
    intro name
    have hgiven : (deltaAt (deltasOf values field) i).find? name =
        (field.mapped? name).bind fun property => property.expression?.bind fun _ =>
          (given property.name (deltasOf values field))[i]? := by
      rcases hcomplete with hnil | hcomplete
      · rw [hnil]
        exact find?_deltaAt_nil field i name
      · exact hcomplete.find?_deltaAt hc i name
    rw [find?_deltaAt_lineUp raw hc.nodup_names, hgiven]
    refine Option.or_none.trans (Option.bind_congr fun property hproperty => ?_)
    exact keptAt_create hr hv h hf (mem_of_mapped? hproperty).1 i
  rw [foundDeltas_eq, filter_eq_of_deltaAt hsame, List.filter_eq_self]
  intro delta hdelta
  rcases hcomplete with hnil | hcomplete
  · rw [hnil] at hdelta
    cases hdelta
  · obtain ⟨property, -, -, -, hall⟩ := hcomplete.carried
    obtain ⟨value, hvalue⟩ := Option.isSome_iff_exists.mp (hall delta hdelta)
    rw [Dictionary.isEmpty_eq_false_iff.mpr ⟨property.name, value, hvalue⟩]
    rfl

lemma Complete.normal {deltas : List Delta} (h : Complete field deltas) {delta : Delta}
    (hdelta : delta ∈ deltas) {name : String} {value : Json}
    (hvalue : delta.find? name = some value) {property : MappedProperty}
    (hname : field.mapped? name = some property) :
    normalize property.kind field.definition.dateForm value = value := by
  obtain ⟨hp, rfl⟩ := mem_of_mapped? hname
  exact (h.storable property hp delta hdelta value hvalue).normal

theorem extractField_create (hr : Ready .simple mapper.fields) (hv : Recoverable mapper values)
    (h : mapper.create values = .ok raw)
    (hfield : mapper.field? field.definition.name = some field) :
    extractField field raw =
      (if (deltasOf values field).isEmpty && !(constants field.mapped).isEmpty
        then [Dictionary.empty] else deltasOf values field).map (addConstants field) := by
  have hc := hr.compiled field (mem_of_field? hfield).1
  rw [extractField, foundDeltas_create hr hv h hfield, overlay_eq, List.map_map]
  apply List.map_congr_left
  intro delta hdelta
  apply normalizeDelta_overlaid hc
  intro name value property hvalue hname
  split at hdelta
  · obtain rfl := List.mem_singleton.mp hdelta
    cases hvalue
  · rcases hv.deltasOf_eq_nil_or_complete hfield with hnil | hcomplete
    · rw [hnil] at hdelta
      cases hdelta
    · exact hcomplete.normal hdelta hvalue hname

/-- Recoverable values come back from the document created from them, with the normalized constants
of every field put in. -/
theorem extract_create {entityType : String} {config : MapperConfig} {schema : Schema}
    {catalog : Catalog} (hb : build entityType config schema catalog = .ok mapper)
    (hd : config.dialect = .simple) (hv : Recoverable mapper values)
    (h : mapper.create values = .ok raw) : mapper.extract raw = mapper.withConstants values := by
  have hr : Ready .simple mapper.fields := hd ▸ (ready_of_build hb).2
  apply Dictionary.ext_find?
  intro name
  rw [find?_extract hr, find?_withConstants hr]
  cases hfield : mapper.field? name with
  | none =>
    cases hfind : values.find? name with
    | none => rfl
    | some deltas =>
      obtain ⟨field, hsome, -⟩ := hv.complete name deltas hfind
      rw [hfield] at hsome
      cases hsome
  | some field =>
    obtain ⟨hf, rfl⟩ := mem_of_field? hfield
    have hc := hr.compiled field hf
    have hnonempty : ∀ deltas, values.find? field.definition.name = some deltas →
        deltas.isEmpty = false := by
      intro deltas hfind
      simpa using (hv.complete_of_find? hfield hfind).nonempty
    rw [Option.bind_some, Option.bind_some, extractField_create hr hv h hfield, constantDeltas?,
      deltasOf]
    cases hconstants : (constants field.mapped).isEmpty with
    | true =>
      have hsame : addConstants field = id := funext (addConstants_of_isEmpty hc hconstants)
      rw [hsame, List.map_id]
      cases hfind : values.find? field.definition.name with
      | none => rfl
      | some deltas => simp [nonEmpty?, hnonempty deltas hfind]
    | false =>
      cases hfind : values.find? field.definition.name with
      | none => rfl
      | some deltas => simp [nonEmpty?, hnonempty deltas hfind]

end Document

def linkDelta (title uri : String) : Delta :=
  (Dictionary.empty.insert "title" (.string title)).insert "uri" (.string uri)

def linkDeltas : List Delta := [linkDelta "A" "https://a", linkDelta "B" "https://b"]

def movieValues : EntityValues := Dictionary.empty.insert "links" linkDeltas

lemma exists_of_mem_linkDeltas {delta : Delta} (h : delta ∈ linkDeltas) :
    ∃ title uri, delta = linkDelta title uri := by
  simp only [linkDeltas, List.mem_cons, List.not_mem_nil, or_false] at h
  rcases h with rfl | rfl
  · exact ⟨_, _, rfl⟩
  · exact ⟨_, _, rfl⟩

lemma find?_linkDelta {title uri name : String} {value : Json}
    (h : (linkDelta title uri).find? name = some value) :
    name = linkUri.name ∧ value = .string uri ∨ name = linkTitle.name ∧ value = .string title := by
  rw [linkDelta, Dictionary.find?_insert, Dictionary.find?_insert] at h
  split at h
  · rename_i hname
    exact Or.inl ⟨hname, (Option.some.inj h).symm⟩
  · split at h
    · rename_i hname
      exact Or.inr ⟨hname, (Option.some.inj h).symm⟩
    · cases h

lemma isSome_linkDelta (title uri : String) {property : MappedProperty}
    (h : property ∈ movieLinks.mapped) : ((linkDelta title uri).find? property.name).isSome := by
  simp only [movieLinks, List.mem_cons, List.not_mem_nil, or_false] at h
  rcases h with rfl | rfl
  · rfl
  · rfl

lemma storable_linkDelta {title uri : String} {property : MappedProperty}
    (h : property ∈ movieLinks.mapped) {value : Json}
    (hvalue : (linkDelta title uri).find? property.name = some value) :
    Storable movieLinks property value := by
  simp only [movieLinks, List.mem_cons, List.not_mem_nil, or_false] at h
  rcases h with rfl | rfl
  · obtain rfl := Option.some.inj hvalue
    exact ⟨by simp, rfl, by simp [linkTitle, referenceProperty], rfl⟩
  · obtain rfl := Option.some.inj hvalue
    exact ⟨by simp, rfl, by simp [linkUri, referenceProperty], rfl⟩

lemma complete_linkDeltas : Complete movieLinks linkDeltas where
  nonempty := by simp [linkDeltas]
  known := by
    intro delta hdelta name value hvalue
    obtain ⟨title, uri, rfl⟩ := exists_of_mem_linkDeltas hdelta
    rcases find?_linkDelta hvalue with ⟨hname, -⟩ | ⟨hname, -⟩
    · exact ⟨linkUri, List.mem_cons_of_mem _ List.mem_cons_self, hname.symm, _, rfl⟩
    · exact ⟨linkTitle, List.mem_cons_self, hname.symm, _, rfl⟩
  uniform := by
    intro property hp _ _
    left
    intro delta hdelta
    obtain ⟨title, uri, rfl⟩ := exists_of_mem_linkDeltas hdelta
    exact isSome_linkDelta title uri hp
  carried := by
    refine ⟨linkTitle, List.mem_cons_self, _, rfl, fun delta hdelta => ?_⟩
    obtain ⟨title, uri, rfl⟩ := exists_of_mem_linkDeltas hdelta
    exact isSome_linkDelta title uri List.mem_cons_self
  storable := by
    intro property hp delta hdelta value hvalue
    obtain ⟨title, uri, rfl⟩ := exists_of_mem_linkDeltas hdelta
    exact storable_linkDelta hp hvalue
  several := fun _ => Or.inl (by simp [movieLinks, Cardinality.one])

lemma recoverable_movieValues : Recoverable movieMapper movieValues where
  wildcards := by
    intro field hf property hp plan hplan
    obtain ⟨-, ⟨-, rfl⟩ | ⟨-, rfl⟩⟩ := plan?_movie hf hp hplan
    · exact ⟨by decide, by decide⟩
    · exact ⟨by decide, by decide⟩
  separate := by
    intro f hf p hp g hg q hq planP planQ hplanP hplanQ
    rcases diverge_movie hf hg hp hq hplanP hplanQ with h | ⟨rfl, rfl, rfl⟩
    · exact Or.inl h
    · exact Or.inr ⟨rfl, rfl⟩
  complete := by
    intro name deltas hfind
    rw [movieValues, Dictionary.find?_insert] at hfind
    split at hfind
    · rename_i hname
      subst hname
      obtain rfl := Option.some.inj hfind
      exact ⟨movieLinks, field?_links, complete_linkDeltas⟩
    · cases hfind

theorem extract_create_movie : ∃ raw, movieMapper.create movieValues = .ok raw ∧
    movieMapper.extract raw =
      movieValues.insert "language" [Dictionary.empty.insert "value" (.string "en")] := by
  have hcreate : movieMapper.create movieValues = .ok (.object [("links", .list
      [.object [("label", .string "A"), ("href", .string "https://a")],
        .object [("label", .string "B"), ("href", .string "https://b")]])]) := rfl
  exact ⟨_, hcreate, extract_create build_movie rfl recoverable_movieValues hcreate⟩

end Mapper

end RecordMapping

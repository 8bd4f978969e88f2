import RecordMapping.Proofs.Mapping.Extraction

/-!
# Identifiers of documents

The identifier of a document is read without extracting the document: it is the first value found
for the main property of the id field, if that is a text or a number. Such a value is always kept,
so it stands in the first delta of the field, whatever else is mapped there. Main statement: when the
main property is a text, that delta holds the identifier.
-/

namespace RecordMapping

namespace Mapper

variable {mapper : Mapper} {raw : Json} {id : String}

/-- Where an identifier comes from: the main property of the id field, and the first value that its
expression finds. -/
structure IdentifiedBy (mapper : Mapper) (raw : Json) (id : String) (field : MappedField)
    (property : MappedProperty) (value : Json) : Prop where
  field_eq : mapper.field? idField = some field
  property_eq : field.mapped? field.definition.mainProperty = some property
  found : ∃ expression, property.expression? = some expression ∧
    (expression.evaluate raw)[0]? = some value
  identifier_eq : value.identifier? = some id

lemma exists_identifiedBy (h : mapper.extractId raw = some id) :
    ∃ field property value, IdentifiedBy mapper raw id field property value := by
  simp only [extractId, Option.bind_eq_bind, Option.bind_eq_some_iff, List.head?_eq_getElem?] at h
  obtain ⟨field, hfield, property, hproperty, expression, hexpression, value, hvalue, hid⟩ := h
  exact ⟨field, property, value, hfield, hproperty, ⟨expression, hexpression, hvalue⟩, hid⟩

namespace IdentifiedBy

variable {field : MappedField} {property : MappedProperty} {value : Json}

lemma hasKept (h : IdentifiedBy mapper raw id field property value) :
    HasKept raw 0 property value := by
  obtain ⟨expression, hexpression, hvalue⟩ := h.found
  refine ⟨expression, hexpression, hvalue, ?_, ?_⟩
  · intro hnull
    have hid := h.identifier_eq
    rw [hnull] at hid
    cases hid
  · intro _ hempty
    have hid := h.identifier_eq
    rw [hempty] at hid
    cases hid

lemma normalize_eq (h : IdentifiedBy mapper raw id field property value)
    (hkind : property.kind = .primitive .string ∨ property.kind = .primitive .uri)
    (form : DateForm) : normalize property.kind form value = .string id := by
  have hid := h.identifier_eq
  have htext : value.isNull = false ∧ Normalize.toText value = id := by
    cases value with
    | string s =>
      simp only [Json.identifier?, Option.ite_none_left_eq_some, Option.some.injEq] at hid
      exact ⟨rfl, hid.2⟩
    | number n => exact ⟨rfl, Option.some.inj hid⟩
    | _ => cases hid
  obtain ⟨hnull, rfl⟩ := htext
  cases value with
  | null => cases hnull
  | _ =>
    rcases hkind with hkind | hkind
    · rw [hkind]
      rfl
    · rw [hkind]
      rfl

lemma exists_extractField (h : IdentifiedBy mapper raw id field property value)
    {dialect : Dialect} (hc : Compiled dialect field.mapped) :
    ∃ delta rest, extractField field raw = delta :: rest ∧
      ∀ name, delta.find? name = valueAt field raw 0 name := by
  obtain ⟨positions, hsorted, hmem, haligned⟩ := extractField_aligned hc raw
  have hkept : keptAt raw 0 property = some value := keptAt_eq_some_iff.mpr h.hasKept
  have hzero : 0 ∈ positions :=
    (hmem 0).mpr ⟨property, (mem_of_mapped? h.property_eq).1, value, hkept⟩
  cases positions with
  | nil => cases hzero
  | cons first others =>
    have hfirst : first = 0 := by
      by_contra hne
      have hlater := (List.pairwise_cons.mp hsorted).1 0
        ((List.mem_cons.mp hzero).resolve_left (Ne.symm hne))
      omega
    subst hfirst
    obtain ⟨delta, rest, hdelta, -, hdeltas⟩ := List.forall₂_cons_left_iff.mp haligned
    exact ⟨delta, rest, hdeltas, hdelta⟩

end IdentifiedBy

/-- An identifier that a document has is extracted with the other values: the id field has deltas,
and the first one holds the identifier as the text of its main property. -/
theorem extract_of_extractId {entityType : String} {config : MapperConfig} {schema : Schema}
    {catalog : Catalog} (hb : build entityType config schema catalog = .ok mapper)
    (htext : ∀ field property, mapper.field? idField = some field →
      field.mapped? field.definition.mainProperty = some property →
      property.kind = .primitive .string ∨ property.kind = .primitive .uri)
    (hid : mapper.extractId raw = some id) :
    ∃ field delta rest, mapper.field? idField = some field ∧
      (mapper.extract raw).find? idField = some (delta :: rest) ∧
      delta.find? field.definition.mainProperty = some (.string id) := by
  have hr := (ready_of_build hb).2
  obtain ⟨field, property, value, h⟩ := exists_identifiedBy hid
  have hc := hr.compiled field (mem_of_field? h.field_eq).1
  obtain ⟨delta, rest, hdeltas, hdelta⟩ := h.exists_extractField hc
  obtain ⟨hmem, hname⟩ := mem_of_mapped? h.property_eq
  refine ⟨field, delta, rest, h.field_eq, ?_, ?_⟩
  · rw [find?_extract hr, h.field_eq, Option.bind_some, hdeltas]
    rfl
  · rw [hdelta, valueAt_eq_some_iff hc]
    exact ⟨property, hmem, hname, value, .inl h.hasKept,
      (h.normalize_eq (htext field property h.field_eq h.property_eq) _).symm⟩

section Pages

/-- Pages are identified by a link, whose title is mapped too. -/
def pageSchema : Schema := ⟨[("page", [.base "id" "ID" .link])], by decide⟩

def pageConfig : MapperConfig where
  dialect := .simple
  constantMark := some "+"
  mappings := ⟨[("id", ⟨[("title", "names/*"), ("uri", "address")], by decide⟩)], by decide⟩

def pageId : MappedField where
  definition := .base "id" "ID" .link
  mappable := [.plain "uri" "uri", .plain "title" "string"]
  mapped := [
    ⟨"title", .primitive .string,
      .path (.slashed ⟨"names/*", [.step (.key "names"), .wildcard]⟩)⟩,
    ⟨"uri", .primitive .uri, .path (.slashed ⟨"address", [.step (.key "address")]⟩)⟩]

def pageMapper : Mapper where
  entityType := "page"
  dialect := .simple
  constantMark := some "+"
  mappings := pageConfig.mappings
  fields := [pageId]

/-- A page with a number as its address and two names, the first of which is null. -/
def numberedPage : Json :=
  .object [("names", .list [.null, .string "B"]), ("address", .ofInt 7)]

/-- The number identifies the page and is extracted as a text, and the second name makes a delta of
its own. -/
theorem extract_of_extractId_page :
    build "page" pageConfig pageSchema Catalog.standard = .ok pageMapper ∧
    pageMapper.extractId numberedPage = some "7" ∧
    ∃ delta rest, (pageMapper.extract numberedPage).find? idField = some (delta :: rest) ∧
      delta.find? "uri" = some (.string "7") ∧ rest.length = 1 := by
  have hb : build "page" pageConfig pageSchema Catalog.standard = .ok pageMapper := rfl
  have hid : pageMapper.extractId numberedPage = some "7" := rfl
  have hfield : pageMapper.field? idField = some pageId := rfl
  have huri (property : MappedProperty) (h : pageId.mapped? "uri" = some property) :
      property.kind = .primitive .uri := by
    obtain rfl := Option.some.inj h
    rfl
  have htext : ∀ field property, pageMapper.field? idField = some field →
      field.mapped? field.definition.mainProperty = some property →
      property.kind = .primitive .string ∨ property.kind = .primitive .uri := by
    intro field property hf hproperty
    obtain rfl := Option.some.inj (hfield.symm.trans hf)
    exact .inr (huri property hproperty)
  obtain ⟨field, delta, rest, hf, hfound, hdelta⟩ := extract_of_extractId hb htext hid
  obtain rfl := Option.some.inj (hfield.symm.trans hf)
  have hcount : ((pageMapper.extract numberedPage).find? idField).map List.length = some 2 := rfl
  rw [hfound] at hcount
  have hlength : rest.length + 1 = 2 := Option.some.inj hcount
  exact ⟨hb, hid, delta, rest, hfound, hdelta, by omega⟩

end Pages

end Mapper

end RecordMapping

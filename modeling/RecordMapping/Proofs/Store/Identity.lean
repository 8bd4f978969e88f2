import Mathlib
import RecordMapping.Mapping.Values
import RecordMapping.Proofs.Plan.ReadBack
import RecordMapping.Proofs.Plan.Segments
import RecordMapping.Proofs.Store.Runs

/-!
# Identity of records

A store knows a record by one of its members, a mapper by the first value that an expression finds
in it. The two part where the member is a list, which the expression spreads, and where the record
is a list itself, whose items a decimal segment finds. A store never answers with such a record: an
identifier is a text or a number, and only objects have members. Main statement: when the expression
is the name of the member, a saved record is known to both by the identifier that the save returned.
-/

namespace RecordMapping

namespace Mapper

variable {mapper : Mapper} {name id : String} {document : Json}

/-- The expression by which the identifier of a document is read. -/
def idExpression? (mapper : Mapper) : Option Expression :=
  (mapper.field? idField).bind fun field =>
    (field.mapped? field.definition.mainProperty).bind MappedProperty.expression?

/-- Whether identifiers are read by the one literal segment that a name writes in the simple
dialect. -/
def ReadsIdAt (mapper : Mapper) (name : String) : Prop :=
  ∃ expression step, mapper.idExpression? = some expression ∧
    Expression.parse .simple name = .ok expression ∧ expression.plan? = some [.step step]

lemma extractId_eq {expression : Expression} (h : mapper.idExpression? = some expression)
    (document : Json) :
    mapper.extractId document = (expression.evaluate document).head?.bind Json.identifier? := by
  obtain ⟨field, hfield, hproperty⟩ := Option.bind_eq_some_iff.mp h
  obtain ⟨property, hmapped, hexpression⟩ := Option.bind_eq_some_iff.mp hproperty
  simp only [extractId, hfield, hmapped, hexpression, Option.bind_eq_bind, Option.bind_some]

lemma extractId_object (h : mapper.ReadsIdAt name) {members : List Member}
    (hlist : ∀ value, findMember name members = some value → value.kind ≠ .list) :
    mapper.extractId (.object members) = recordId name (.object members) := by
  obtain ⟨expression, step, hexpression, hparse, hplan⟩ := h
  have htext : step.text = name := by
    obtain ⟨path, hpath, rfl⟩ := Expression.parse_simple hparse
    exact SlashedPath.text_of_parse_single hpath (Option.some.inj hplan)
  rw [extractId_eq hexpression, Expression.evaluate_eq_resolve hparse hplan, Plan.resolve,
    Option.bind_some, Json.child?, htext, recordId, Json.member?]
  cases hfound : findMember name members with
  | none => rfl
  | some value =>
    rw [Plan.resolve_nil_of_not_list (hlist value hfound)]
    rfl

lemma extractId_of_recordId (h : mapper.ReadsIdAt name) (hid : recordId name document = some id) :
    mapper.extractId document = some id := by
  obtain ⟨value, hmember, hvalue⟩ := Option.bind_eq_some_iff.mp hid
  cases document with
  | object members =>
    rw [extractId_object h, hid]
    intro found hfound hlist
    obtain rfl := Option.some.inj (hfound.symm.trans hmember)
    cases found with
    | list items => cases hvalue
    | _ => cases hlist
  | _ => cases hmember

end Mapper

namespace RecordStore

open Records

variable {mapper : Mapper} {id : String} {document : Json}

lemma extractId_of_load {store : RecordStore} (h : mapper.ReadsIdAt store.idKey)
    (hload : store.load id = some document) : mapper.extractId document = some id := by
  apply Mapper.extractId_of_recordId h
  simpa using List.find?_some hload

namespace State

/-- A saved document is stored and loaded under the identifier that the save returned, and this is
the identifier that the mapper reads of it, whatever the document held in its place before. -/
theorem extractId_save {state : State} (hnamed : state.supply.Named)
    (hid : mapper.ReadsIdAt state.store.idKey) (hsave : (state.save document).2 = .ok id) :
    ∃ kept, Identified state.store.idKey state.supply.next id document kept ∧
      (state.save document).1.store.load id = some kept ∧ mapper.extractId kept = some id := by
  have hsaved := saved_of_save hnamed hsave
  obtain ⟨kept, hkept, hload, -⟩ := hsaved.found
  have hkey : (state.save document).1.store.idKey = state.store.idKey := by rw [hsaved.settings]
  exact ⟨kept, hkept, hload, extractId_of_load (hkey ▸ hid) hload⟩

section Numbered

open Mapper

def bookSchema : Schema :=
  ⟨[("book", [.base "id" "ID" .string, .base "title" "Title" .string])], by decide⟩

/-- The identifier is mapped to a segment that looks like a position. -/
def bookConfig : MapperConfig where
  dialect := .simple
  constantMark := some "+"
  mappings := ⟨[("id", ⟨[("value", "0")], by decide⟩),
    ("title", ⟨[("value", "title")], by decide⟩)], by decide⟩

def bookMapper : Mapper where
  entityType := "book"
  dialect := .simple
  constantMark := some "+"
  mappings := bookConfig.mappings
  fields :=
    [⟨.base "id" "ID" .string, [.plain "value" "string"],
      [⟨"value", .primitive .string, .path (.slashed ⟨"0", [.step (.index 0)]⟩)⟩]⟩,
    ⟨.base "title" "Title" .string, [.plain "value" "string"],
      [⟨"value", .primitive .string, .path (.slashed ⟨"title", [.step (.key "title")]⟩)⟩]⟩]

/-- The shelf with the identifiers in a member that looks like a position. -/
def numberedShelf : State := { shelf with store := { shelf.store with idKey := "0" } }

/-- A book with a number as its identifier, and one with a list in its place. -/
def lady : Json := .object [("0", .ofInt 7), ("title", .string "Lady Susan")]

def lesley : Json := .object [("0", .list [.string "8"]), ("title", .string "Lesley Castle")]

/-- A number is the identifier for store and mapper, and where there is a list both know the book by
the identifier that it is given. -/
theorem extractId_save_numberedShelf :
    build "book" bookConfig bookSchema Catalog.standard = .ok bookMapper ∧
    numberedShelf.supply.Named ∧ bookMapper.ReadsIdAt numberedShelf.store.idKey ∧
    bookMapper.extractId lesley = some "8" ∧
    (∃ kept, (numberedShelf.save lady).1.store.load "7" = some kept ∧
      bookMapper.extractId kept = some "7") ∧
    ∃ kept, (numberedShelf.save lesley).1.store.load shelf.supply.next = some kept ∧
      bookMapper.extractId kept = some shelf.supply.next := by
  have hnamed : numberedShelf.supply.Named := IdSupply.named_ofNumber 0
  have hid : bookMapper.ReadsIdAt numberedShelf.store.idKey := ⟨_, _, rfl, rfl, rfl⟩
  have hwritable : numberedShelf.store.Writable numberedShelf.tree := writable_shelf
  have hlady : (numberedShelf.save lady).2 = .ok "7" :=
    save_ok_iff.mpr ⟨⟨lady, .own (by decide)⟩, hwritable⟩
  have hlesley : (numberedShelf.save lesley).2 = .ok shelf.supply.next :=
    save_ok_iff.mpr ⟨⟨_, .given (by decide)⟩, hwritable⟩
  obtain ⟨kept, -, hkept⟩ := extractId_save hnamed hid hlady
  obtain ⟨given, -, hgiven⟩ := extractId_save hnamed hid hlesley
  exact ⟨rfl, hnamed, hid, rfl, ⟨kept, hkept⟩, given, hgiven⟩

end Numbered

end State

end RecordStore

end RecordMapping

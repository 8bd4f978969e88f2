import RecordMapping.Proofs.Plan.Segments
import RecordMapping.Proofs.Store.Sessions

/-!
# Loading and querying by identifier

Loading looks the identifying member up by its name and compares identifiers; a filter takes the name
for a path and compares values loosely. On records that are objects the path of a name without a
slash finds just the member, also where the name looks like a position, and what is loosely equal to
a text that identifies is identified by this text. Main statement: a store loads a record exactly as
a query for its identifier finds it.
-/

namespace RecordMapping

namespace RecordFilter

variable {name id : String} {value record : Json}

lemma stepsOf_of_not_mem (h : '/' ∉ name.toList) : stepsOf name = [.ofSegment name.toList] := by
  rw [stepsOf, pieces_of_not_mem h, List.map_singleton]

lemma find?_stepsOf (hname : '/' ∉ name.toList) (hrecord : record.kind = .object) :
    Json.find? (stepsOf name) record = record.member? name := by
  cases record with
  | object members =>
    rw [stepsOf_of_not_mem hname, Json.find?, Json.child?, Step.text_ofSegment,
      String.ofList_toList, Json.member?]
    exact Option.bind_fun_some _
  | _ => cases hrecord

lemma looselyEqual_string (hid : id ≠ "") :
    value.looselyEqual (.string id) = (value.identifier? == some id) := by
  have hown : Json.identifier? (.string id) = some id := by simp [Json.identifier?, hid]
  rw [Json.looselyEqual, hown]
  cases value with
  | string s =>
    by_cases hs : s = ""
    · simp [hs, Json.same, Json.identifier?, Ne.symm hid]
    · simp [hs, Json.same, Json.identifier?]
  | number n => simp [Json.same, Json.identifier?]
  | _ => rfl

theorem admits_equal (hname : '/' ∉ name.toList) (hid : id ≠ "") (hrecord : record.kind = .object) :
    (equal name (.string id)).admits record = (recordId name record == some id) := by
  simp only [admits, equal, find?_stepsOf hname hrecord, recordId]
  cases record.member? name with
  | none => rfl
  | some value => exact looselyEqual_string hid

end RecordFilter

namespace RecordStore

open Records

variable {store : RecordStore} {id : String}

/-- The query for the records of one identifier. -/
def queryFor (store : RecordStore) (id : String) : RecordQuery :=
  ⟨[.equal store.idKey (.string id)], [], 0, none⟩

lemma query_unsorted (store : RecordStore) (filters : List RecordFilter) :
    store.query ⟨filters, [], 0, none⟩ = store.records.filter (RecordQuery.admits filters) := by
  have hsorted : (store.records.filter (RecordQuery.admits filters)).Pairwise
      fun a b => (compareBy [] a b).isLE := List.pairwise_of_forall fun _ _ => rfl
  simp only [query, RecordQuery.apply, List.mergeSort_of_pairwise hsorted, List.drop_zero]

lemma filter_admits_equal (hkey : '/' ∉ store.idKey.toList)
    (hobject : ∀ record ∈ store.records, record.kind = .object) (hid : id ≠ "") :
    store.records.filter (RecordQuery.admits [.equal store.idKey (.string id)]) =
      store.records.filter fun record => recordId store.idKey record == some id := by
  apply List.filter_congr
  intro record hrecord
  rw [RecordQuery.admits, List.all_cons, List.all_nil, Bool.and_true]
  exact RecordFilter.admits_equal hkey hid (hobject record hrecord)

lemma length_filter_recordId (idKey id : String) (records : List Json) :
    (records.filter fun record => recordId idKey record == some id).length =
      (Records.ids idKey records).count id := by
  rw [Records.ids, List.count_filterMap, List.countP_eq_length_filter]

/-- A store of objects loads under an identifier what the query for it finds first, counts as many
records as have it, and loads several identifiers as one after the other, whatever they are. -/
theorem load_eq_query (hobject : ∀ record ∈ store.records, record.kind = .object)
    (hkey : '/' ∉ store.idKey.toList) (hid : id ≠ "") :
    store.load id = (store.query (store.queryFor id)).head? ∧
    store.count (store.queryFor id).filters = store.ids.count id ∧
    ∀ ids, store.loadAll ids = ids.flatMap fun other => (store.load other).toList := by
  have hfilter := filter_admits_equal hkey hobject hid
  refine ⟨?_, ?_, ?_⟩
  · rw [queryFor, query_unsorted, hfilter, List.head?_filter]
    rfl
  · rw [count, queryFor, hfilter, length_filter_recordId]
    rfl
  · intro ids
    exact List.filterMap_eq_flatMap_toList _ _

section Numbered

/-- Novels with their identifiers in a member that looks like a position: a number, the same number
as a text, none, and another text. -/
def evelina : Json := .object [("0", .ofInt 7), ("title", .string "Evelina")]

def ivanhoe : Json := .object [("0", .string "7"), ("title", .string "Ivanhoe")]

def persuasion : Json := .object [("0", .null), ("title", .string "Persuasion")]

def kenilworth : Json := .object [("title", .string "Kenilworth"), ("0", .string "07")]

def novels : RecordStore where
  name := "file:novels.jsonl"
  path := ⟨"novels.jsonl"⟩
  format := .lines
  idKey := "0"
  records := [evelina, persuasion, ivanhoe, kenilworth]

/-- The first of two records is loaded, both are counted, and an unknown identifier is left out. -/
theorem load_eq_query_novels :
    (∀ record ∈ novels.records, record.kind = .object) ∧ '/' ∉ novels.idKey.toList ∧ "7" ≠ "" ∧
    novels.load "7" = some evelina ∧
    (novels.query (novels.queryFor "7")).head? = some evelina ∧
    novels.count (novels.queryFor "7").filters = 2 ∧
    novels.loadAll ["07", "8", "7"] = [kenilworth, evelina] := by
  have hobject : ∀ record ∈ novels.records, record.kind = .object := by
    simp [novels, evelina, persuasion, ivanhoe, kenilworth, Json.kind]
  have hkey : '/' ∉ novels.idKey.toList := by decide
  have hid : "7" ≠ "" := by decide
  obtain ⟨hload, hcount, hloadAll⟩ := load_eq_query hobject hkey hid
  have hfirst : novels.load "7" = some evelina := rfl
  have hids : novels.ids = ["7", "7", "07"] := by decide
  refine ⟨hobject, hkey, hid, hfirst, hload.symm.trans hfirst, ?_, ?_⟩
  · rw [hcount, hids]
    decide
  · rw [hloadAll]
    rfl

end Numbered

end RecordStore

end RecordMapping

import Mathlib
import RecordMapping.CommandLine.Identifiers
import RecordMapping.Proofs.Store.Records
import RecordMapping.Store.RecordStore

namespace RecordMapping

namespace IdSupply

/-- A supply that never gives the empty text, which identifies no record. -/
def Named (supply : IdSupply) : Prop := ∀ used, supply.name used ≠ ""

lemma uuid_ne_empty (n : Nat) : uuid n ≠ "" := by
  intro h
  have htext := congrArg String.toList h
  rw [uuid, String.toList_intercalate] at htext
  simp [List.intercalate_cons_cons] at htext

lemma named_ofNumber (start : Nat) : (ofNumber start).Named :=
  fun used => uuid_ne_empty (start + used)

end IdSupply

namespace FileTree

lemma write_cases (tree : FileTree) (path : FilePath) :
    (∃ fault, ∀ text, tree.write path text = .error fault) ∨
    ∃ location, ∀ text, tree.write path text = .ok (tree.put location (.file text)) := by
  unfold write
  cases tree.locate path with
  | error fault => exact .inl ⟨fault, fun text => rfl⟩
  | ok location =>
    dsimp only
    cases tree.entry? location with
    | none => exact .inr ⟨location, fun text => rfl⟩
    | some entry =>
      cases entry with
      | directory => exact .inl ⟨.isDirectory, fun text => rfl⟩
      | file old => exact .inr ⟨location, fun text => rfl⟩
      | binary => exact .inr ⟨location, fun text => rfl⟩

end FileTree

namespace RecordStore

open Records

def ids (store : RecordStore) : List String := Records.ids store.idKey store.records

/-- What a store is after a record was saved under an identifier. -/
structure Saved (fresh : String) (record : Json) (id : String) (before after : RecordStore) :
    Prop where
  settings : after = { before with records := after.records }
  found : ∃ kept, Identified before.idKey fresh id record kept ∧ after.load id = some kept ∧
    PutFirst before.idKey id kept before.records after.records
  others : ∀ other, other ≠ id → after.load other = before.load other
  length : after.records.length = before.records.length + if id ∈ before.ids then 0 else 1

/-- What a store is after an identifier was deleted. -/
structure Deleted (id : String) (before after : RecordStore) : Prop where
  settings : after = { before with records := after.records }
  gone : after.load id = none
  rest : after.records =
    before.records.filter fun record => decide (recordId before.idKey record ≠ some id)

inductive Change where
  | save (record : Json)
  | delete (id : String)

/-- The answer to a change whose records are in memory, by what became of the file. -/
def answer {α : Type} (value : α) : Option FileFault → Except StoreError α
  | none => .ok value
  | some fault => .error (.file fault)

lemma answer_eq_ok_iff {α : Type} {value result : α} {fault? : Option FileFault} :
    answer value fault? = .ok result ↔ fault? = none ∧ value = result := by
  cases fault? with
  | none => simp [answer]
  | some fault => simp [answer]

/-- Whether the file of a store can be written. -/
def Writable (store : RecordStore) (tree : FileTree) : Prop := (store.persist tree).2 = none

/-- A file fails for its place, not for the records that go into it. -/
lemma persist_fault (records : List Json) (store : RecordStore) (tree : FileTree) :
    ({ store with records := records }.persist tree).2 = (store.persist tree).2 := by
  unfold persist
  dsimp only
  split
  · rfl
  · rename_i made _
    obtain ⟨fault, hwrite⟩ | ⟨location, hwrite⟩ := made.write_cases store.path
    · rw [hwrite, hwrite]
    · rw [hwrite, hwrite]

namespace State

variable {state : State} {record kept : Json} {id : String}

def apply (state : State) : Change → State
  | .save record => (state.save record).1
  | .delete id => (state.delete id).1

/-- The state after changes were asked for in turn, whether or not each of them succeeds. -/
def run (state : State) (changes : List Change) : State := changes.foldl apply state

lemma change_store (records : List Json) (supply : IdSupply) (state : State) :
    (state.change records supply).1.store = { state.store with records := records } := rfl

lemma change_fault (records : List Json) (supply : IdSupply) (state : State) :
    (state.change records supply).2 = (state.store.persist state.tree).2 :=
  persist_fault records state.store state.tree

lemma answer_change {α : Type} (value : α) (changed : State × Option FileFault) :
    (match changed with
      | (after, none) => (after, .ok value)
      | (after, some fault) => (after, .error (.file fault))) =
    (changed.1, answer value changed.2) := by
  obtain ⟨after, fault?⟩ := changed
  cases fault? with
  | none => rfl
  | some fault => rfl

lemma save_of_identified (h : Identified state.store.idKey state.supply.next id record kept) :
    ∃ supply, supply.name = state.supply.name ∧
      let changed := state.change (put state.store.idKey id kept state.store.records) supply
      state.save record = (changed.1, answer id changed.2) := by
  refine ⟨if (recordId state.store.idKey record).isSome then state.supply
    else state.supply.advance, by split <;> rfl, ?_⟩
  unfold save
  simp only [identify?_eq_some_iff.mpr h]
  exact answer_change id _

lemma save_of_not_identified
    (h : ∀ id kept, ¬ Identified state.store.idKey state.supply.next id record kept) :
    state.save record = (state, .error (.notObject state.store.name)) := by
  have hnone : identify? state.store.idKey state.supply.next record = none := by
    cases hid : identify? state.store.idKey state.supply.next record with
    | none => rfl
    | some named => exact absurd (identify?_eq_some_iff.mp hid) (h named.1 named.2)
  unfold save
  simp only [hnone]

/-- A save either leaves the state alone or puts one record in, under an identifier it has. -/
lemma save_cases (hnamed : state.supply.Named) (record : Json) :
    state.save record = (state, .error (.notObject state.store.name)) ∨
    ∃ id kept supply, Identified state.store.idKey state.supply.next id record kept ∧
      recordId state.store.idKey kept = some id ∧ supply.name = state.supply.name ∧
      let changed := state.change (put state.store.idKey id kept state.store.records) supply
      state.save record = (changed.1, answer id changed.2) := by
  by_cases h : ∃ id kept, Identified state.store.idKey state.supply.next id record kept
  · obtain ⟨id, kept, hkept⟩ := h
    obtain ⟨supply, hname, hsave⟩ := save_of_identified hkept
    exact .inr ⟨id, kept, supply, hkept, hkept.recordId_eq (hnamed _), hname, hsave⟩
  · exact .inl (save_of_not_identified fun id kept hkept => h ⟨id, kept, hkept⟩)

theorem save_ok_iff : (state.save record).2 = .ok id ↔
    (∃ kept, Identified state.store.idKey state.supply.next id record kept) ∧
      state.store.Writable state.tree := by
  constructor
  · intro h
    by_cases hkept : ∃ own kept, Identified state.store.idKey state.supply.next own record kept
    · obtain ⟨own, kept, hkept⟩ := hkept
      obtain ⟨supply, -, hsave⟩ := save_of_identified hkept
      rw [hsave] at h
      obtain ⟨hfault, rfl⟩ := answer_eq_ok_iff.mp h
      exact ⟨⟨kept, hkept⟩, (change_fault _ supply state).symm.trans hfault⟩
    · rw [save_of_not_identified fun own kept h => hkept ⟨own, kept, h⟩] at h
      cases h
  · rintro ⟨⟨kept, hkept⟩, hwritable⟩
    obtain ⟨supply, -, hsave⟩ := save_of_identified hkept
    rw [hsave]
    exact answer_eq_ok_iff.mpr ⟨(change_fault _ supply state).trans hwritable, rfl⟩

lemma saved_of_save (hnamed : state.supply.Named) (h : (state.save record).2 = .ok id) :
    Saved state.supply.next record id state.store (state.save record).1.store := by
  obtain hfail | ⟨own, kept, supply, hkept, has, -, hsave⟩ := save_cases hnamed record
  · rw [hfail] at h
    cases h
  · rw [hsave] at h ⊢
    obtain ⟨-, rfl⟩ := answer_eq_ok_iff.mp h
    have hput := putFirst_put state.store.idKey own kept state.store.records
    exact {
      settings := rfl
      found := ⟨kept, hkept, hput.find?_self has, hput⟩
      others := fun other hne => hput.find?_of_ne has hne
      length := hput.length_eq }

lemma delete_of_mem (h : id ∈ state.store.ids) :
    let changed := state.change (remove state.store.idKey id state.store.records) state.supply
    state.delete id = (changed.1, answer () changed.2) := by
  have hlength := mt length_remove_eq_iff.mp (not_not.mpr h)
  unfold delete
  simp only [if_neg hlength]
  exact answer_change () _

lemma delete_of_not_mem (h : id ∉ state.store.ids) :
    state.delete id = (state, .error (.unknownRecord id)) := by
  unfold delete
  simp only [if_pos (length_remove_eq_iff.mpr h)]

theorem delete_ok_iff : (state.delete id).2 = .ok () ↔
    id ∈ state.store.ids ∧ state.store.Writable state.tree := by
  by_cases hmem : id ∈ state.store.ids
  · rw [delete_of_mem hmem, answer_eq_ok_iff, change_fault]
    simp [hmem, Writable]
  · simp [delete_of_not_mem hmem, hmem]

lemma deleted_of_delete (h : (state.delete id).2 = .ok ()) :
    Deleted id state.store (state.delete id).1.store := by
  by_cases hmem : id ∈ state.store.ids
  · rw [delete_of_mem hmem]
    exact {
      settings := rfl
      gone := find?_remove_self state.store.idKey id state.store.records
      rest := by simp only [change_store, remove, bne, decide_not, beq_eq_decide] }
  · rw [delete_of_not_mem hmem] at h
    cases h

lemma delete_unknown_iff : (state.delete id).2 = .error (.unknownRecord id) ↔
    id ∉ state.store.ids := by
  constructor
  · intro h hmem
    rw [delete_of_mem hmem] at h
    revert h
    generalize (State.change _ _ state).2 = fault?
    cases fault? with
    | none => simp [answer]
    | some fault => simp [answer]
  · intro hmem
    rw [delete_of_not_mem hmem]

/-- What every change keeps: identifiers to give are no empty texts, and those of the records are
distinct. -/
structure Distinct (state : State) : Prop where
  named : state.supply.Named
  nodup : state.store.ids.Nodup

lemma Distinct.apply (h : state.Distinct) (change : Change) : (state.apply change).Distinct := by
  cases change with
  | save record =>
    obtain hfail | ⟨id, kept, supply, -, has, hname, hsave⟩ := save_cases h.named record
    · simpa [State.apply, hfail] using h
    · simp only [State.apply, hsave]
      have hput := putFirst_put state.store.idKey id kept state.store.records
      exact ⟨fun used => hname ▸ h.named used, hput.nodup_ids has h.nodup⟩
  | delete id =>
    simp only [State.apply]
    by_cases hmem : id ∈ state.store.ids
    · rw [delete_of_mem hmem]
      exact ⟨h.named, nodup_ids_remove h.nodup⟩
    · rw [delete_of_not_mem hmem]
      exact h

lemma Distinct.run (h : state.Distinct) (changes : List Change) : (state.run changes).Distinct := by
  induction changes generalizing state with
  | nil => exact h
  | cons change rest ih => exact ih (h.apply change)

/-- A store is a table in the order of its records. What is saved is found under its identifier, in
the place of the first record that had it or else last, and what is deleted is gone; other
identifiers and records stay as they are. A delete fails as unknown, and does nothing, just when no
record has the identifier. Whatever runs of saves and deletes a store goes through, distinct
identifiers stay distinct. -/
theorem save_delete_laws (state : State) (hnamed : state.supply.Named) :
    (∀ record id,
      ((state.save record).2 = .ok id ↔
        (∃ kept, Identified state.store.idKey state.supply.next id record kept) ∧
          state.store.Writable state.tree) ∧
      ((state.save record).2 = .ok id →
        Saved state.supply.next record id state.store (state.save record).1.store)) ∧
    (∀ id,
      ((state.delete id).2 = .ok () ↔
        id ∈ state.store.ids ∧ state.store.Writable state.tree) ∧
      ((state.delete id).2 = .ok () → Deleted id state.store (state.delete id).1.store) ∧
      ((state.delete id).2 = .error (.unknownRecord id) ↔ id ∉ state.store.ids) ∧
      (id ∉ state.store.ids → (state.delete id).1 = state)) ∧
    (state.store.ids.Nodup → ∀ changes, (state.run changes).store.ids.Nodup) := by
  refine ⟨fun record id => ⟨save_ok_iff, saved_of_save hnamed⟩, fun id => ?_,
    fun hnodup changes => (Distinct.run ⟨hnamed, hnodup⟩ changes).nodup⟩
  refine ⟨delete_ok_iff, deleted_of_delete, delete_unknown_iff, fun hmem => ?_⟩
  rw [delete_of_not_mem hmem]

section Shelf

/-- A store of books. Two records share an identifier, one as a number and one as a text, and two
have no usable one. -/
def shelf : State where
  tree := ⟨["library"], [(⟨"/library"⟩, .directory)]⟩
  supply := .ofNumber 0
  store := {
    name := "file:books.json"
    path := ⟨"books.json"⟩
    format := .list
    idKey := "id"
    records := [
      .string "note",
      .object [("id", .ofInt 7), ("title", .string "Emma")],
      .object [("id", .null), ("title", .string "Persuasion")],
      .object [("id", .string "7"), ("title", .string "Ivanhoe")]] }

lemma writable_shelf : shelf.store.Writable shelf.tree := by
  have hpath : shelf.store.path = ⟨"books.json"⟩ := rfl
  have hparent : FilePath.parent? ⟨"books.json"⟩ = some ⟨""⟩ := by decide
  have hhere : FileTree.pathFault? ⟨""⟩ = some .missing := by cbv
  have hfault : FileTree.pathFault? ⟨"books.json"⟩ = none := by cbv
  have hlocate : shelf.tree.locate ⟨"books.json"⟩ = .ok ["library", "books.json"] := by
    simp only [FileTree.locate, hfault]
    rfl
  have hnew : shelf.tree.entry? ["library", "books.json"] = none := rfl
  simp only [Writable, persist, hpath, hparent, FileTree.makeDirectories, hhere, FileTree.write,
    hlocate, hnew]

/-- A book of identifier seven, and one that has no identifier yet. -/
def waverley : Json := .object [("title", .string "Waverley"), ("id", .string "7")]

def sanditon : Json := .object [("id", .list []), ("title", .string "Sanditon")]

/-- The shelf without its last book, so that its identifiers are distinct. -/
def shorterShelf : State :=
  { shelf with store := { shelf.store with records := shelf.store.records.dropLast } }

/-- A book takes the place of the first one of its identifier, another one is given an identifier,
both books of an identifier are deleted at once, an unknown identifier cannot be deleted, and a run
from a shelf of distinct identifiers leaves them distinct. -/
theorem save_delete_laws_shelf :
    shelf.supply.Named ∧ shorterShelf.supply.Named ∧
    (shelf.save waverley).2 = .ok "7" ∧
    Saved shelf.supply.next waverley "7" shelf.store (shelf.save waverley).1.store ∧
    (shelf.save sanditon).2 = .ok shelf.supply.next ∧
    Saved shelf.supply.next sanditon shelf.supply.next shelf.store
      (shelf.save sanditon).1.store ∧
    (shelf.delete "7").2 = .ok () ∧
    Deleted "7" shelf.store (shelf.delete "7").1.store ∧
    (shelf.delete "8").2 = .error (.unknownRecord "8") ∧ (shelf.delete "8").1 = shelf ∧
    (shorterShelf.run [.save waverley, .save sanditon, .delete "8"]).store.ids.Nodup := by
  have hnamed : shelf.supply.Named := IdSupply.named_ofNumber 0
  have hwaverley : Identified "id" shelf.supply.next "7" waverley waverley := .own (by decide)
  have hsanditon : Identified "id" shelf.supply.next shelf.supply.next sanditon
      (.object (putMember "id" (.string shelf.supply.next)
        [("id", .list []), ("title", .string "Sanditon")])) := .given (by decide)
  have hids : shelf.store.ids = ["7", "7"] := by decide
  have hseven : "7" ∈ shelf.store.ids := by simp [hids]
  have height : "8" ∉ shelf.store.ids := by simp [hids]
  obtain ⟨hsaves, hdeletes, -⟩ := save_delete_laws shelf hnamed
  obtain ⟨-, -, hruns⟩ := save_delete_laws shorterShelf hnamed
  have hown := (hsaves waverley "7").1.mpr ⟨⟨_, hwaverley⟩, writable_shelf⟩
  have hgiven := (hsaves sanditon _).1.mpr ⟨⟨_, hsanditon⟩, writable_shelf⟩
  have hgone := (hdeletes "7").1.mpr ⟨hseven, writable_shelf⟩
  exact ⟨hnamed, hnamed, hown, (hsaves waverley "7").2 hown, hgiven, (hsaves sanditon _).2 hgiven,
    hgone, (hdeletes "7").2.1 hgone, (hdeletes "8").2.2.1.mpr height, (hdeletes "8").2.2.2 height,
    hruns (by decide) _⟩

end Shelf

end State

end RecordStore

end RecordMapping

import Mathlib.Data.List.Nodup
import RecordMapping.Proofs.Document.ReadWrite
import RecordMapping.Store.Records

/-!
# Records of identifiers

A table answers for an identifier with the first record that has it. Putting a record in touches one
place only, that of this first record or a new one at the end, and everything known of the table
afterwards follows from where that place is. Taking an identifier out leaves the other records in
order.
-/

namespace RecordMapping

namespace Records

variable {idKey fresh id other : String} {record kept : Json} {records after : List Json}

/-- The identifiers of the records that have a usable one, in order. -/
def ids (idKey : String) (records : List Json) : List String :=
  records.filterMap (recordId idKey)

/-- What is kept of a record, and under which identifier: the record itself under its own one, and
an object that has no usable one with a fresh one as its member. -/
inductive Identified (idKey fresh : String) : String → Json → Json → Prop where
  | own {id : String} {record : Json} (has : recordId idKey record = some id) :
      Identified idKey fresh id record record
  | given {members : List Member} (lacks : recordId idKey (.object members) = none) :
      Identified idKey fresh fresh (.object members)
        (.object (putMember idKey (.string fresh) members))

/-- Where a record of an identifier is put: in the place of the first record that has it, or last if
there is none. -/
inductive PutFirst (idKey id : String) (record : Json) : List Json → List Json → Prop where
  | replaced (before : List Json) {rest : List Json} {old : Json} (first : id ∉ ids idKey before)
      (has : recordId idKey old = some id) :
      PutFirst idKey id record (before ++ old :: rest) (before ++ record :: rest)
  | added {records : List Json} (missing : id ∉ ids idKey records) :
      PutFirst idKey id record records (records ++ [record])

lemma mem_ids : id ∈ ids idKey records ↔ ∃ record ∈ records, recordId idKey record = some id :=
  List.mem_filterMap

lemma ids_append (idKey : String) (records rest : List Json) :
    ids idKey (records ++ rest) = ids idKey records ++ ids idKey rest :=
  List.filterMap_append

lemma ids_cons_of_recordId (h : recordId idKey record = some id) (rest : List Json) :
    ids idKey (record :: rest) = id :: ids idKey rest :=
  List.filterMap_cons_some h

lemma not_mem_ids_cons :
    id ∉ ids idKey (record :: records) ↔
      recordId idKey record ≠ some id ∧ id ∉ ids idKey records := by
  simp [mem_ids]

lemma find?_eq_none_iff : find? idKey id records = none ↔ id ∉ ids idKey records := by
  simp [find?, mem_ids]

lemma find?_append (idKey id : String) (records rest : List Json) :
    find? idKey id (records ++ rest) = (find? idKey id records).or (find? idKey id rest) :=
  List.find?_append

lemma find?_cons_of_recordId (h : recordId idKey record = some id) (rest : List Json) :
    find? idKey id (record :: rest) = some record := by
  simp [find?, h]

lemma find?_cons_of_ne (h : recordId idKey record = some id) (hne : other ≠ id)
    (rest : List Json) : find? idKey other (record :: rest) = find? idKey other rest := by
  simp [find?, h, Ne.symm hne]

lemma recordId_putMember (hfresh : fresh ≠ "") (members : List Member) :
    recordId idKey (.object (putMember idKey (.string fresh) members)) = some fresh := by
  simp [recordId, Json.member?, findMember_putMember, Json.identifier?, hfresh]

lemma Identified.recordId_eq (hfresh : fresh ≠ "") (h : Identified idKey fresh id record kept) :
    recordId idKey kept = some id := by
  cases h with
  | own has => exact has
  | given lacks => exact recordId_putMember hfresh _

/-- A record is identified as it is kept, and left alone otherwise. -/
theorem identify?_eq_some_iff :
    identify? idKey fresh record = some (id, kept) ↔ Identified idKey fresh id record kept := by
  constructor
  · intro h
    unfold identify? at h
    split at h
    · rename_i own hown
      obtain ⟨rfl, rfl⟩ := Prod.mk.inj (Option.some.inj h)
      exact .own hown
    · rename_i hnone
      split at h
      · obtain ⟨rfl, rfl⟩ := Prod.mk.inj (Option.some.inj h)
        exact .given hnone
      · cases h
  · intro h
    cases h with
    | own has => simp [identify?, has]
    | given lacks => simp [identify?, lacks]

theorem putFirst_put (idKey id : String) (record : Json) (records : List Json) :
    PutFirst idKey id record records (put idKey id record records) := by
  induction records with
  | nil => exact .added (by simp [ids])
  | cons old rest ih =>
    unfold put
    split
    · rename_i has
      exact .replaced [] (by simp [ids]) has
    · rename_i hne
      generalize put idKey id record rest = after at ih
      cases ih with
      | replaced before first has =>
        exact .replaced (old :: before) (not_mem_ids_cons.mpr ⟨hne, first⟩) has
      | added missing => exact .added (not_mem_ids_cons.mpr ⟨hne, missing⟩)

namespace PutFirst

lemma find?_self (h : PutFirst idKey id record records after)
    (has : recordId idKey record = some id) : find? idKey id after = some record := by
  cases h with
  | replaced before first _ =>
    rw [find?_append, find?_eq_none_iff.mpr first, Option.none_or, find?_cons_of_recordId has]
  | added missing =>
    rw [find?_append, find?_eq_none_iff.mpr missing, Option.none_or, find?_cons_of_recordId has]

lemma find?_of_ne (h : PutFirst idKey id record records after)
    (has : recordId idKey record = some id) (hne : other ≠ id) :
    find? idKey other after = find? idKey other records := by
  cases h with
  | replaced before _ had =>
    rw [find?_append, find?_append, find?_cons_of_ne has hne, find?_cons_of_ne had hne]
  | added _ =>
    rw [find?_append, find?_cons_of_ne has hne]
    exact Option.or_none

lemma ids_eq (h : PutFirst idKey id record records after)
    (has : recordId idKey record = some id) :
    ids idKey after =
      if id ∈ ids idKey records then ids idKey records else ids idKey records ++ [id] := by
  cases h with
  | replaced before _ had =>
    rw [ids_append, ids_append, ids_cons_of_recordId has, ids_cons_of_recordId had, if_pos]
    simp
  | added missing =>
    rw [ids_append, ids_cons_of_recordId has, if_neg missing]
    rfl

lemma length_eq (h : PutFirst idKey id record records after) :
    after.length = records.length + if id ∈ ids idKey records then 0 else 1 := by
  cases h with
  | replaced before _ had =>
    rw [if_pos (mem_ids.mpr ⟨_, List.mem_append_right _ List.mem_cons_self, had⟩)]
    simp
  | added missing =>
    rw [if_neg missing]
    simp

lemma nodup_ids (h : PutFirst idKey id record records after)
    (has : recordId idKey record = some id) (hdistinct : (ids idKey records).Nodup) :
    (ids idKey after).Nodup := by
  rw [h.ids_eq has]
  split
  · exact hdistinct
  · rename_i hnew
    rw [← List.concat_eq_append]
    exact hdistinct.concat hnew

end PutFirst

lemma find?_remove_self (idKey id : String) (records : List Json) :
    find? idKey id (remove idKey id records) = none := by
  rw [find?_eq_none_iff, mem_ids]
  rintro ⟨record, hmem, has⟩
  simp [remove, has] at hmem

lemma length_remove_eq_iff :
    (remove idKey id records).length = records.length ↔ id ∉ ids idKey records := by
  simp [remove, List.length_filter_eq_length_iff, mem_ids]

lemma nodup_ids_remove (hdistinct : (ids idKey records).Nodup) :
    (ids idKey (remove idKey id records)).Nodup :=
  hdistinct.sublist (List.filter_sublist.filterMap _)

end Records

end RecordMapping

import RecordMapping.Proofs.Store.Sessions

namespace RecordMapping

namespace Records

variable {idKey id : String} {record : Json} {records : List Json}

lemma put_eq_self (h : find? idKey id records = some record) :
    put idKey id record records = records := by
  induction records with
  | nil => cases h
  | cons old rest ih =>
    unfold put
    by_cases hold : recordId idKey old = some id
    · rw [if_pos hold]
      rw [find?_cons_of_recordId hold] at h
      rw [Option.some.inj h]
    · rw [if_neg hold, ih]
      simpa [find?, hold] using h

end Records

namespace RecordStore

open Records

lemma answer_eq_error {α : Type} {value : α} {fault? : Option FileFault} {error : StoreError}
    (h : answer value fault? = .error error) : ∃ fault, error = .file fault := by
  cases fault? with
  | none => cases h
  | some fault => exact ⟨fault, (Except.error.inj h).symm⟩

namespace State

variable {state : State} {record kept : Json} {id : String} {error : StoreError}

lemma save_failed (h : state.reply (.save record) = .failed error) :
    ((∀ fault, error ≠ .file fault) ∧ state.apply (.save record) = state) ∨
    (∃ fault, error = .file fault) ∧
      ∃ id kept, Identified state.store.idKey state.supply.next id record kept := by
  by_cases hnamed : ∃ id kept, Identified state.store.idKey state.supply.next id record kept
  · obtain ⟨id, kept, hkept⟩ := hnamed
    obtain ⟨supply, -, hsave⟩ := save_of_identified hkept
    simp only [reply, hsave] at h
    refine .inr ⟨?_, id, kept, hkept⟩
    split at h
    · cases h
    · rename_i result hanswer
      obtain ⟨fault, hfault⟩ := answer_eq_error hanswer
      exact ⟨fault, (Reply.failed.inj h).symm.trans hfault⟩
  · have hsave := save_of_not_identified fun id kept hkept => hnamed ⟨id, kept, hkept⟩
    simp only [reply, hsave] at h
    refine .inl ⟨fun fault hfault => ?_, by simp only [apply, hsave]⟩
    cases (Reply.failed.inj h).trans hfault

lemma delete_failed (h : state.reply (.delete id) = .failed error) :
    ((∀ fault, error ≠ .file fault) ∧ state.apply (.delete id) = state) ∨
    (∃ fault, error = .file fault) ∧ id ∈ state.store.ids := by
  by_cases hmem : id ∈ state.store.ids
  · simp only [reply, delete_of_mem hmem] at h
    refine .inr ⟨?_, hmem⟩
    split at h
    · cases h
    · rename_i result hanswer
      obtain ⟨fault, hfault⟩ := answer_eq_error hanswer
      exact ⟨fault, (Reply.failed.inj h).symm.trans hfault⟩
  · have hdelete := delete_of_not_mem hmem
    simp only [reply, hdelete] at h
    refine .inl ⟨fun fault hfault => ?_, by simp only [apply, hdelete]⟩
    cases (Reply.failed.inj h).trans hfault

lemma apply_save_of_load (hown : recordId state.store.idKey record = some id)
    (hload : state.store.load id = some record) :
    ∃ tree, state.apply (.save record) = state.withTree tree := by
  have hnamed : identify? state.store.idKey state.supply.next record = some (id, record) :=
    identify?_eq_some_iff.mpr (.own hown)
  rw [apply_save]
  simp only [hnamed, hown, Option.isSome_some, if_true]
  rw [put_eq_self hload]
  exact ⟨_, rfl⟩

/-- A record that is put in memory is seen there, unless its identifier was answered with it. -/
lemma own_of_records_apply_save (hfresh : state.supply.next ∉ state.store.ids)
    (hkept : Identified state.store.idKey state.supply.next id record kept)
    (hsame : (state.apply (.save record)).store.records = state.store.records) :
    recordId state.store.idKey record = some id ∧ state.store.load id = some record := by
  have hput : put state.store.idKey id kept state.store.records = state.store.records := by
    rw [apply_save] at hsame
    simpa only [identify?_eq_some_iff.mpr hkept, change_store] using hsame
  have hfirst := putFirst_put state.store.idKey id kept state.store.records
  rw [hput] at hfirst
  cases hkept with
  | own has => exact ⟨has, hfirst.find?_self has⟩
  | given lacks =>
    have hmissing : state.supply.next ∉ Records.ids state.store.idKey state.store.records := hfresh
    have hlength := hfirst.length_eq
    rw [if_neg hmissing] at hlength
    omega

lemma records_apply_delete_ne (hmem : id ∈ state.store.ids) :
    (state.apply (.delete id)).store.records ≠ state.store.records := by
  intro hsame
  have hlength := mt length_remove_eq_iff.mp (not_not.mpr hmem)
  rw [apply_delete, if_neg hlength] at hsame
  exact hlength (congrArg List.length hsame)

/-- A failed change is forgotten, whatever is done and asked later, exactly when it was refused or
saved a record that its identifier was answered with. A refused change does nothing at all. All
others stay in memory just as they do when the file is written. -/
theorem failed_change_forgotten_iff {change : Change} (h : state.reply change = .failed error)
    (hfresh : state.supply.next ∉ state.store.ids) :
    ((∀ later inquiry, ((state.apply change).run later).store.answerTo inquiry =
        (state.run later).store.answerTo inquiry) ↔
      (∀ fault, error ≠ .file fault) ∨ ∃ id record, change = .save record ∧
        recordId state.store.idKey record = some id ∧ state.store.load id = some record) ∧
    ((∀ fault, error ≠ .file fault) → state.apply change = state) ∧
    (∀ tree, ((state.withTree tree).apply change).store = (state.apply change).store) := by
  have hrefused : (∀ fault, error ≠ .file fault) → state.apply change = state := by
    intro hkind
    cases change with
    | save record =>
      obtain ⟨-, hstate⟩ | ⟨⟨fault, hfault⟩, -⟩ := save_failed h
      · exact hstate
      · exact absurd hfault (hkind fault)
    | delete id =>
      obtain ⟨-, hstate⟩ | ⟨⟨fault, hfault⟩, -⟩ := delete_failed h
      · exact hstate
      · exact absurd hfault (hkind fault)
  refine ⟨⟨fun hforgotten => ?_, ?_⟩, hrefused, fun tree => ?_⟩
  · have hsame := records_eq_of_answerTo (hforgotten [])
    cases change with
    | save record =>
      obtain ⟨hkind, -⟩ | ⟨-, id, kept, hkept⟩ := save_failed h
      · exact .inl hkind
      · exact .inr ⟨id, record, rfl, own_of_records_apply_save hfresh hkept hsame⟩
    | delete id =>
      obtain ⟨hkind, -⟩ | ⟨-, hmem⟩ := delete_failed h
      · exact .inl hkind
      · exact absurd hsame (records_apply_delete_ne hmem)
  · rintro (hkind | ⟨id, record, rfl, hown, hload⟩) later inquiry
    · rw [hrefused hkind]
    · obtain ⟨tree, happly⟩ := apply_save_of_load hown hload
      obtain ⟨written, hrun⟩ := run_withTree tree state later
      rw [happly, hrun]
      rfl
  · obtain ⟨written, happly⟩ := apply_withTree tree state change
    rw [happly]
    rfl

section LockedShelf

/-- The shelf with a directory in the place of its file, so that nothing can be written. -/
def lockedShelf : State where
  tree := ⟨["library"], [(⟨"/library"⟩, .directory), (⟨"/library/books.json"⟩, .directory)]⟩
  supply := ⟨fun _ => "new", 0⟩
  store := shelf.store

lemma persist_lockedShelf :
    (lockedShelf.store.persist lockedShelf.tree).2 = some .isDirectory := by
  have hpath : lockedShelf.store.path = ⟨"books.json"⟩ := rfl
  have hparent : FilePath.parent? ⟨"books.json"⟩ = some ⟨""⟩ := by decide
  have hhere : FileTree.pathFault? ⟨""⟩ = some .missing := by cbv
  have hfault : FileTree.pathFault? ⟨"books.json"⟩ = none := by cbv
  have hlocate : lockedShelf.tree.locate ⟨"books.json"⟩ = .ok ["library", "books.json"] := by
    simp only [FileTree.locate, hfault]
    rfl
  have htaken : lockedShelf.tree.entry? ["library", "books.json"] = some .directory := rfl
  simp only [persist, hpath, hparent, FileTree.makeDirectories, hhere, FileTree.write, hlocate,
    htaken]

lemma reply_lockedShelf :
    lockedShelf.reply (.save waverley) = .failed (.file .isDirectory) := by
  have hown : Identified "id" lockedShelf.supply.next "7" waverley waverley := .own (by decide)
  obtain ⟨supply, -, hsave⟩ := @save_of_identified lockedShelf _ _ _ hown
  have hfault := (change_fault (put "id" "7" waverley lockedShelf.store.records) supply
    lockedShelf).trans persist_lockedShelf
  simp only [reply, hsave]
  rw [show lockedShelf.store.idKey = "id" from rfl, hfault]
  rfl

/-- A book that could not be saved is found all the same, while a delete that was refused is
forgotten. -/
theorem failed_change_forgotten_iff_lockedShelf :
    lockedShelf.supply.next ∉ lockedShelf.store.ids ∧
    lockedShelf.reply (.save waverley) = .failed (.file .isDirectory) ∧
    (¬ ∀ later inquiry, ((lockedShelf.apply (.save waverley)).run later).store.answerTo inquiry =
      (lockedShelf.run later).store.answerTo inquiry) ∧
    lockedShelf.reply (.delete "8") = .failed (.unknownRecord "8") ∧
    (∀ later inquiry, ((lockedShelf.apply (.delete "8")).run later).store.answerTo inquiry =
      (lockedShelf.run later).store.answerTo inquiry) := by
  have hids : lockedShelf.store.ids = ["7", "7"] := by decide
  have hfresh : lockedShelf.supply.next ∉ lockedShelf.store.ids := by
    rw [hids]
    decide
  have hunknown : lockedShelf.reply (.delete "8") = .failed (.unknownRecord "8") := by
    simp [reply, delete_of_not_mem, hids]
  obtain ⟨hsave, -, -⟩ := failed_change_forgotten_iff reply_lockedShelf hfresh
  obtain ⟨hdelete, -, -⟩ := failed_change_forgotten_iff hunknown hfresh
  refine ⟨hfresh, reply_lockedShelf, fun hforgotten => ?_, hunknown,
    hdelete.mpr (.inl fun fault hfault => by cases hfault)⟩
  obtain hkind | ⟨id, record, hchange, hown, hload⟩ := hsave.mp hforgotten
  · exact hkind _ rfl
  · obtain rfl := Change.save.inj hchange
    obtain rfl : id = "7" := (Option.some.inj hown).symm
    have hemma : lockedShelf.store.load "7" =
        some (.object [("id", .ofInt 7), ("title", .string "Emma")]) := by rfl
    simp [hemma, waverley] at hload

end LockedShelf

end State

end RecordStore

end RecordMapping

import RecordMapping.Proofs.Files.Written
import RecordMapping.Proofs.Store.Sessions
import RecordMapping.Proofs.Store.Texts

/-!
# Opening a store again

What every change keeps as long as its file can be written: opening the file would give the very
store that is in memory. Main statement: records are read back from the text that is written for
them, so a store can be opened again at any point of a session without a difference to it.
-/

namespace RecordMapping

namespace RecordStore

open Records

def empty (base : FilePath) (config : FileStorage) : RecordStore :=
  let path := base.join ⟨config.path⟩
  ⟨"file:" ++ config.path, path, config.format.getD (.ofExtension path.extension?), config.idKey,
    []⟩

variable {base : FilePath} {config : FileStorage} {tree : FileTree} {store : RecordStore}

lemma openFile_ok (h : openFile tree base config = .ok store) :
    store = { empty base config with records := store.records } ∧
      ∀ record ∈ store.records, Json.Formed store.format.levels record := by
  unfold openFile at h
  dsimp only at h
  split at h
  · cases h
  · cases h
    exact ⟨rfl, by simp⟩
  · split at h
    · cases h
    · rename_i records hread
      cases h
      exact ⟨rfl, RecordFormat.formed_of_read hread⟩

lemma openFile_of_read (hstore : store = { empty base config with records := store.records })
    {text : String} (hfile : tree.readIfAny store.path = .ok (some text))
    (hread : store.format.read text.toList = .ok store.records) :
    openFile tree base config = .ok store := by
  rw [hstore] at hfile hread ⊢
  simp only [empty] at hfile hread ⊢
  simp only [openFile, hfile, hread]

lemma readIfAny_persist (h : (store.persist tree).2 = none) :
    (store.persist tree).1.readIfAny store.path = .ok (some store.fileText) := by
  unfold persist at h ⊢
  dsimp only at h ⊢
  split at h
  · cases h
  · split at h
    · rename_i hwrite
      exact FileTree.readIfAny_of_write hwrite
    · cases h

namespace State

variable {state : State} {record : Json} {id : String}

lemma mem_put {idKey : String} {kept : Json} {records : List Json}
    (h : record ∈ put idKey id kept records) : record ∈ records ∨ record = kept := by
  induction records with
  | nil => exact .inr (List.mem_singleton.mp h)
  | cons old rest ih =>
    unfold put at h
    split at h
    · obtain rfl | h := List.mem_cons.mp h
      · exact .inr rfl
      · exact .inl (List.mem_cons_of_mem _ h)
    · obtain rfl | h := List.mem_cons.mp h
      · exact .inl List.mem_cons_self
      · exact (ih h).imp_left (List.mem_cons_of_mem _)

lemma apply_cases {change : Change} (hfile : ∀ fault, state.reply change ≠ .failed (.file fault)) :
    state.apply change = state ∨
    ∃ records supply, state.apply change = (state.change records supply).1 ∧
      (state.change records supply).2 = none ∧
      ∀ record ∈ records, record ∈ state.store.records ∨ ∃ id saved, change = .save saved ∧
        Identified state.store.idKey state.supply.next id saved record := by
  cases change with
  | save saved =>
    by_cases hnamed : ∃ id kept, Identified state.store.idKey state.supply.next id saved kept
    · obtain ⟨id, kept, hkept⟩ := hnamed
      obtain ⟨supply, -, hsave⟩ := save_of_identified hkept
      refine .inr ⟨put state.store.idKey id kept state.store.records, supply,
        congrArg Prod.fst hsave, ?_, fun record hmem => ?_⟩
      · cases hfault : (state.change (put state.store.idKey id kept state.store.records)
          supply).2 with
        | none => rfl
        | some fault => exact absurd (by simp only [reply, hsave, hfault, answer]) (hfile fault)
      · obtain hold | rfl := mem_put hmem
        · exact .inl hold
        · exact .inr ⟨id, saved, rfl, hkept⟩
    · exact .inl (congrArg Prod.fst
        (save_of_not_identified fun id kept hkept => hnamed ⟨id, kept, hkept⟩))
  | delete id =>
    by_cases hmem : id ∈ state.store.ids
    · have hdelete := delete_of_mem hmem
      refine .inr ⟨remove state.store.idKey id state.store.records, state.supply,
        congrArg Prod.fst hdelete, ?_, fun record hmem => .inl (List.mem_of_mem_filter hmem)⟩
      cases hfault : (state.change (remove state.store.idKey id state.store.records)
        state.supply).2 with
      | none => rfl
      | some fault => exact absurd (by simp only [reply, hdelete, hfault, answer]) (hfile fault)
    · exact .inl (congrArg Prod.fst (delete_of_not_mem hmem))

/-- What every written change keeps: opening the file gives the store in memory, whose records are
legible. -/
structure Mirrored (base : FilePath) (config : FileStorage) (state : State) : Prop where
  opened : openFile state.tree base config = .ok state.store
  legible : ∀ record ∈ state.store.records, record.Legible state.store.format.levels

namespace Mirrored

lemma legible_of_identified {levels : Nat} {idKey fresh : String} {saved kept : Json}
    (h : Identified idKey fresh id saved kept) (hsaved : saved.Legible levels) :
    kept.Legible levels := by
  cases h with
  | own has => exact hsaved
  | given lacks => exact hsaved.putMember _ _

lemma change (h : state.Mirrored base config) {records : List Json} {supply : IdSupply}
    (hrecords : ∀ record ∈ records, record.Legible state.store.format.levels)
    (hfile : (state.change records supply).2 = none) :
    (state.change records supply).1.Mirrored base config := by
  obtain ⟨hsettings, -⟩ := openFile_ok h.opened
  refine ⟨?_, hrecords⟩
  have hstore : { state.store with records := records } =
      { empty base config with records := records } := by
    rw [hsettings]
  refine openFile_of_read hstore (readIfAny_persist hfile) ?_
  rw [fileText, String.toList_ofList]
  exact RecordFormat.read_write hrecords

lemma apply (h : state.Mirrored base config) {change : Change}
    (hsaved : ∀ record, change = .save record → record.Legible state.store.format.levels)
    (hfile : ∀ fault, state.reply change ≠ .failed (.file fault)) :
    (state.apply change).Mirrored base config := by
  obtain hsame | ⟨records, supply, happly, hwritten, hrecords⟩ := apply_cases hfile
  · rwa [hsame]
  · rw [happly]
    refine h.change (fun record hmem => ?_) hwritten
    obtain hold | ⟨id, saved, hchange, hkept⟩ := hrecords record hmem
    · exact h.legible record hold
    · exact legible_of_identified hkept (hsaved saved hchange)

lemma reopen (h : state.Mirrored base config) :
    state.serve base config .reopen = (state, .opened) := by
  simp only [serve, h.opened]

lemma format_eq (h : state.Mirrored base config) :
    state.store.format = (empty base config).format := by
  rw [(openFile_ok h.opened).1]

lemma serve (h : state.Mirrored base config) {request : Request}
    (hsaved : ∀ record, request = .change (.save record) →
      record.Legible (empty base config).format.levels)
    (hfile : ∀ fault, (state.serve base config request).2 ≠ .failed (.file fault)) :
    (state.serve base config request).1.Mirrored base config := by
  cases request with
  | ask inquiry => exact h
  | change change =>
    refine h.apply (fun record hchange => ?_) hfile
    rw [h.format_eq]
    exact hsaved record (congrArg Request.change hchange)
  | reopen => rwa [h.reopen]

/-- A session keeps file and memory together as long as every file could be written. -/
theorem after (h : state.Mirrored base config) {requests : List Request}
    (hsaved : ∀ record, .change (.save record) ∈ requests →
      record.Legible (empty base config).format.levels)
    (hfile : ∀ fault, .failed (.file fault) ∉ replies base config requests state) :
    (state.after base config requests).Mirrored base config := by
  induction requests generalizing state with
  | nil => exact h
  | cons request rest ih =>
    rw [replies] at hfile
    have hnext : (state.serve base config request).1.Mirrored base config := h.serve
      (fun record hrequest => hsaved record (hrequest ▸ List.mem_cons_self))
      (fun fault hfault => hfile fault (hfault ▸ List.mem_cons_self))
    exact ih hnext (fun record hmem => hsaved record (List.mem_cons_of_mem _ hmem))
      (fun fault hmem => hfile fault (List.mem_cons_of_mem _ hmem))

end Mirrored

lemma replies_reopen {before : List Request} (after : List Request)
    (h : (state.after base config before).Mirrored base config) :
    replies base config (before ++ .reopen :: after) state =
      (replies base config (before ++ after) state).insertIdx before.length .opened := by
  induction before generalizing state with
  | nil =>
    have hreopen : state.serve base config .reopen = (state, .opened) := h.reopen
    simp only [List.nil_append, List.length_nil, List.insertIdx_zero, replies, hreopen]
  | cons request rest ih =>
    simp only [List.cons_append, List.length_cons, List.insertIdx_succ_cons, replies, ih h]

/-- Legible records are read back from the text that is written for them, in both formats. So a
store that was opened can be opened again at any point of a session, and nothing is changed by it,
if doubles of its records are read back, the records that are saved are legible and every file
could be written. -/
theorem reopening_changes_nothing (base : FilePath) (config : FileStorage) :
    (∀ (format : RecordFormat) (records : List Json),
      (∀ record ∈ records, record.Legible format.levels) →
      format.read (format.write records) = .ok records) ∧
    ∀ (tree : FileTree) (supply : IdSupply) (store : RecordStore) (before after : List Request),
      openFile tree base config = .ok store →
      (∀ record ∈ store.records, ∀ x : Binary64, Number.OccursIn (.float x) record →
        Number.Legible (.float x)) →
      (∀ record, .change (.save record) ∈ before → record.Legible store.format.levels) →
      (∀ fault, .failed (.file fault) ∉ replies base config before ⟨tree, supply, store⟩) →
      let state := State.after base config ⟨tree, supply, store⟩ before
      state.serve base config .reopen = (state, .opened) ∧
      replies base config (before ++ .reopen :: after) ⟨tree, supply, store⟩ =
        (replies base config (before ++ after) ⟨tree, supply, store⟩).insertIdx
          before.length .opened := by
  refine ⟨fun format records => RecordFormat.read_write, ?_⟩
  intro tree supply store before after hopen hdoubles hsaved hfile
  obtain ⟨hsettings, hformed⟩ := openFile_ok hopen
  have hstart : Mirrored base config ⟨tree, supply, store⟩ :=
    ⟨hopen, fun record hmem => ⟨hformed record hmem, hdoubles record hmem⟩⟩
  have hmirrored := hstart.after (fun record hmem => hstart.format_eq ▸ hsaved record hmem) hfile
  exact ⟨hmirrored.reopen, replies_reopen after hmirrored⟩

section Shelf

def shelfFile : FileStorage := ⟨"books.json", none, "id"⟩

def writtenShelf : State := shelf.withTree ⟨["library"],
  [(⟨"/library"⟩, .directory), (⟨"/library/books.json"⟩, .file shelf.store.fileText)]⟩

lemma locate_writtenShelf :
    writtenShelf.tree.locate ⟨"books.json"⟩ = .ok ["library", "books.json"] := by
  have hfault : FileTree.pathFault? ⟨"books.json"⟩ = none := by cbv
  simp only [FileTree.locate, hfault]
  rfl

lemma writable_writtenShelf : writtenShelf.store.Writable writtenShelf.tree := by
  have hpath : writtenShelf.store.path = ⟨"books.json"⟩ := rfl
  have hparent : FilePath.parent? ⟨"books.json"⟩ = some ⟨""⟩ := by decide
  have hhere : FileTree.pathFault? ⟨""⟩ = some .missing := by cbv
  have hfile : writtenShelf.tree.entry? ["library", "books.json"] =
      some (.file shelf.store.fileText) := rfl
  simp only [Writable, persist, hpath, hparent, FileTree.makeDirectories, hhere, FileTree.write,
    locate_writtenShelf, hfile]

lemma legible_shelf :
    ∀ record ∈ shelf.store.records, record.Legible (RecordFormat.levels .list) := by
  have hseven : (Number.ofInt 7).Legible := by decide
  simp only [shelf, List.forall_mem_cons]
  refine ⟨Json.legible_string _, .object (by decide) ?_, .object (by decide) ?_,
    .object (by decide) ?_, by simp⟩
  · simp [Json.ofInt, Json.legible_number hseven, Json.legible_string]
  · simp [Json.legible_null, Json.legible_string]
  · simp [Json.legible_string]

lemma legible_waverley : waverley.Legible (RecordFormat.levels .list) :=
  .object (by decide) (by simp [Json.legible_string])

lemma openFile_writtenShelf :
    openFile writtenShelf.tree ⟨""⟩ shelfFile = .ok writtenShelf.store := by
  have hfile : writtenShelf.tree.readIfAny ⟨"books.json"⟩ = .ok (some shelf.store.fileText) := by
    simp only [FileTree.readIfAny, FileTree.read, FileTree.look, locate_writtenShelf]
    rfl
  refine openFile_of_read rfl hfile ?_
  rw [fileText, String.toList_ofList]
  exact RecordFormat.read_write legible_shelf

/-- A session in which a delete is refused and a book is saved. -/
def firstVisit : List Request := [.change (.delete "8"), .change (.save waverley)]

/-- A session in which a book is looked for and deleted. -/
def secondVisit : List Request := [.ask (.load "7"), .change (.delete "7")]

lemma replies_firstVisit :
    replies ⟨""⟩ shelfFile firstVisit writtenShelf =
      [.failed (.unknownRecord "8"), .saved "7"] := by
  have hids : writtenShelf.store.ids = ["7", "7"] := by decide
  have hdelete : writtenShelf.delete "8" = (writtenShelf, .error (.unknownRecord "8")) :=
    delete_of_not_mem (by simp [hids])
  have hown : Identified "id" writtenShelf.supply.next "7" waverley waverley := .own (by decide)
  have hsave : (writtenShelf.save waverley).2 = .ok "7" :=
    save_ok_iff.mpr ⟨⟨_, hown⟩, writable_writtenShelf⟩
  simp only [firstVisit, replies, serve, reply, State.apply, hdelete, hsave]

/-- The second visit goes as if the file had not been opened for it. -/
theorem reopening_changes_nothing_shelf :
    openFile writtenShelf.tree ⟨""⟩ shelfFile = .ok writtenShelf.store ∧
    RecordFormat.list.read (RecordFormat.list.write shelf.store.records) =
      .ok shelf.store.records ∧
    replies ⟨""⟩ shelfFile (firstVisit ++ .reopen :: secondVisit) writtenShelf =
      (replies ⟨""⟩ shelfFile (firstVisit ++ secondVisit) writtenShelf).insertIdx 2 .opened := by
  obtain ⟨hread, hreopen⟩ := reopening_changes_nothing ⟨""⟩ shelfFile
  have hsaved (record : Json) (hmem : .change (.save record) ∈ firstVisit) :
      record.Legible (RecordFormat.levels .list) := by
    obtain rfl : record = waverley := by simpa [firstVisit] using hmem
    exact legible_waverley
  have hfile (fault : FileFault) :
      .failed (.file fault) ∉ replies ⟨""⟩ shelfFile firstVisit writtenShelf := by
    simp [replies_firstVisit]
  obtain ⟨-, hsame⟩ := hreopen writtenShelf.tree writtenShelf.supply writtenShelf.store firstVisit
    secondVisit openFile_writtenShelf (fun record hmem => (legible_shelf record hmem).doubles)
    hsaved hfile
  exact ⟨openFile_writtenShelf, hread .list _ legible_shelf, hsame⟩

end Shelf

end State

end RecordStore

end RecordMapping

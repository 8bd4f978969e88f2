import RecordMapping.Proofs.CommandLine.Saving

/-!
# Documents that fail

A document that fails is skipped by a creation: it gives an event and changes neither the store nor
the identifiers that are given. Whether it fails depends on the document alone, as long as the file
of the store can be written. Main statement: without the documents that fail, a creation gives the
same output and leaves the same files, and its counts are those of the documents.
-/

namespace RecordMapping

namespace Run

variable {mapper : Mapper} {idKey? : Option String} {document raw : Json} {documents : List Json}
  {position other : Nat} {state : RecordStore.State}

/-- The raw document of a document of entity values, if one can be created. -/
def created? (mapper : Mapper) (document : Json) : Option Json :=
  match entityValues document with
  | .error _ => none
  | .ok values => (mapper.create values).toOption

/-- Whether a raw document can be saved under identifiers of a name. -/
def isSavable (idKey : String) (raw : Json) : Bool := (recordId idKey raw).isSome || isObject raw

/-- Whether a creation does not fail at a document: its raw document is created and can be saved, if
it is to be saved under identifiers of some name. -/
def succeeds (mapper : Mapper) (idKey? : Option String) (document : Json) : Bool :=
  (created? mapper document).any fun raw => idKey?.all fun idKey => isSavable idKey raw

/-- The name of the identifiers that a creation saves under, if it saves. -/
def savingKey? (type : EntityTypeConfig) (save : Bool) : Option String :=
  if save then type.storage.map fun | .file storage => storage.idKey else none

/-- A document fails because it holds no entity values, because they cannot be written into a raw
document, or because the raw document cannot be saved. -/
theorem succeeds_eq_false_iff : succeeds mapper idKey? document = false ↔
    (∃ fault, entityValues document = .error fault) ∨
    (∃ values error, entityValues document = .ok values ∧ mapper.create values = .error error) ∨
    ∃ values raw idKey, entityValues document = .ok values ∧ mapper.create values = .ok raw ∧
      idKey? = some idKey ∧ recordId idKey raw = none ∧ isObject raw = false := by
  unfold succeeds created?
  cases entityValues document with
  | error fault => simp
  | ok values =>
    cases hcreate : mapper.create values with
    | error error => simp [Except.toOption, hcreate]
    | ok raw =>
      cases idKey? with
      | none => simp [Except.toOption, hcreate]
      | some idKey => simp [Except.toOption, hcreate, isSavable]

lemma toOption_createOne (mapper : Mapper) (position : Nat) (document : Json) :
    (createOne mapper position document).toOption = created? mapper document := by
  unfold createOne created?
  cases entityValues document with
  | error fault => rfl
  | ok values =>
    dsimp only
    cases mapper.create values with
    | error error => rfl
    | ok raw => rfl

lemma createOne_of_created? (h : created? mapper document = some raw) (position : Nat) :
    createOne mapper position document = .ok raw := by
  rw [← toOption_createOne mapper position] at h
  cases hcreate : createOne mapper position document with
  | error event => simp [hcreate, Except.toOption] at h
  | ok created => simpa [hcreate, Except.toOption] using h

lemma createOne_of_not_created? (h : created? mapper document = none) (position : Nat) :
    ∃ event, createOne mapper position document = .error event := by
  rw [← toOption_createOne mapper position] at h
  cases hcreate : createOne mapper position document with
  | error event => exact ⟨event, rfl⟩
  | ok created => simp [hcreate, Except.toOption] at h

/-- The event of a document whose record is in memory but not in the file. -/
def fileEvent (position : Nat) (fault : FileFault) : Event :=
  skipped position "failed to save record" (StoreError.file fault).message

lemma saveOne_of_not_succeeds (h : succeeds mapper (some state.store.idKey) document = false)
    (position : Nat) : ∃ event, saveOne mapper position document state = (state, .error event) := by
  unfold saveOne
  cases hcreated : created? mapper document with
  | none =>
    obtain ⟨event, hevent⟩ := createOne_of_not_created? hcreated position
    exact ⟨event, by rw [hevent]⟩
  | some raw =>
    have hsavable : isSavable state.store.idKey raw = false := by
      simpa [succeeds, hcreated] using h
    have hlost (id : String) (kept : Json) :
        ¬ Records.Identified state.store.idKey state.supply.next id raw kept := by
      intro hkept
      cases hkept with
      | own has => simp [isSavable, has] at hsavable
      | given lacks => simp [isSavable, isObject] at hsavable
    rw [createOne_of_created? hcreated]
    simp only [RecordStore.State.save_of_not_identified hlost]
    exact ⟨_, rfl⟩

lemma exists_identified (h : isSavable state.store.idKey raw) :
    ∃ id kept, Records.Identified state.store.idKey state.supply.next id raw kept := by
  cases hown : recordId state.store.idKey raw with
  | some id => exact ⟨id, raw, .own hown⟩
  | none =>
    cases raw with
    | object members => exact ⟨_, _, .given hown⟩
    | _ => simp [isSavable, hown, isObject] at h

/-- A document that does not fail is saved in one way wherever it stands, unless the file fails. -/
lemma saveOne_of_succeeds (h : succeeds mapper (some state.store.idKey) document) :
    (∃ after id, after.store.idKey = state.store.idKey ∧
      ∀ position, saveOne mapper position document state = (after, .ok id)) ∨
    ∃ after fault, ∀ position,
      saveOne mapper position document state = (after, .error (fileEvent position fault)) := by
  cases hcreated : created? mapper document with
  | none => simp [succeeds, hcreated] at h
  | some raw =>
    have hsavable : isSavable state.store.idKey raw := by
      simpa [succeeds, hcreated] using h
    obtain ⟨id, kept, hkept⟩ := exists_identified hsavable
    obtain ⟨supply, -, hsave⟩ := RecordStore.State.save_of_identified hkept
    dsimp only at hsave
    have hkey := congrArg RecordStore.idKey (RecordStore.State.change_store
      (Records.put state.store.idKey id kept state.store.records) supply state)
    generalize state.change (Records.put state.store.idKey id kept state.store.records) supply =
      changed at hsave hkey
    obtain ⟨after, fault?⟩ := changed
    cases fault? with
    | none =>
      refine .inl ⟨after, id, hkey, fun position => ?_⟩
      simp only [saveOne, createOne_of_created? hcreated, hsave, RecordStore.answer]
    | some fault =>
      refine .inr ⟨after, fault, fun position => ?_⟩
      simp only [saveOne, createOne_of_created? hcreated, hsave, RecordStore.answer, fileEvent]

/-- Outcomes and those of the documents that do not fail: the same output, and no events. -/
structure Sifted (outcomes kept : List (Except Event String)) : Prop where
  outputs : outputs kept = outputs outcomes
  events : events kept = []

namespace Sifted

variable {outcomes kept : List (Except Event String)}

lemma error (h : Sifted outcomes kept) (event : Event) : Sifted (.error event :: outcomes) kept :=
  ⟨h.outputs, h.events⟩

lemma ok (h : Sifted outcomes kept) (line : String) :
    Sifted (.ok line :: outcomes) (.ok line :: kept) :=
  ⟨congrArg (line :: ·) h.outputs, h.events⟩

end Sifted

lemma length_outputs_add (outcomes : List (Except Event String)) :
    (outputs outcomes).length + (events outcomes).length = outcomes.length := by
  induction outcomes with
  | nil => rfl
  | cons outcome rest ih =>
    cases outcome with
    | error event =>
      simp only [outputs, events, List.filterMap_cons, List.length_cons] at ih ⊢
      omega
    | ok line =>
      simp only [outputs, events, List.filterMap_cons, List.length_cons] at ih ⊢
      omega

lemma length_outcomesFrom (outcome : Nat → Json → Except Event String) (position : Nat)
    (documents : List Json) :
    (outcomesFrom outcome position documents).length = documents.length := by
  induction documents generalizing position with
  | nil => rfl
  | cons document rest ih => simp [outcomesFrom, ih]

lemma length_saveFrom (mapper : Mapper) (position : Nat) (documents : List Json)
    (state : RecordStore.State) :
    (saveFrom mapper position documents state).2.length = documents.length := by
  induction documents generalizing position state with
  | nil => rfl
  | cons document rest ih => simp [saveFrom, ih]

lemma sifted_printing (mapper : Mapper) (documents : List Json) (position other : Nat) :
    Sifted (outcomesFrom (printOne mapper) position documents)
      (outcomesFrom (printOne mapper) other (documents.filter (succeeds mapper none))) := by
  induction documents generalizing position other with
  | nil => exact ⟨rfl, rfl⟩
  | cons document rest ih =>
    cases hcreated : created? mapper document with
    | none =>
      obtain ⟨event, hevent⟩ := createOne_of_not_created? hcreated position
      have hfails : succeeds mapper none document = false := by simp [succeeds, hcreated]
      rw [List.filter_cons_of_neg (by simp [hfails]), outcomesFrom, printOne, hevent]
      exact (ih (position + 1) other).error event
    | some raw =>
      have hsucceeds : succeeds mapper none document := by simp [succeeds, hcreated]
      have hprint (place : Nat) : printOne mapper place document = .ok raw.toText := by
        rw [printOne, createOne_of_created? hcreated]
        rfl
      rw [List.filter_cons_of_pos hsucceeds, outcomesFrom, outcomesFrom, hprint, hprint]
      exact (ih (position + 1) (other + 1)).ok raw.toText

lemma saveFrom_of_saveOne {after : RecordStore.State} {outcome : Except Event String}
    (h : saveOne mapper position document state = (after, outcome)) (rest : List Json) :
    saveFrom mapper position (document :: rest) state =
      ((saveFrom mapper (position + 1) rest after).1,
        outcome :: (saveFrom mapper (position + 1) rest after).2) := by
  simp only [saveFrom, h]

lemma sifted_saving (mapper : Mapper) (documents : List Json) (position other : Nat)
    (state : RecordStore.State)
    (hfile : ∀ place fault, fileEvent place fault ∉
      events (saveFrom mapper position documents state).2) :
    let whole := saveFrom mapper position documents state
    let sifted := saveFrom mapper other
      (documents.filter (succeeds mapper (some state.store.idKey))) state
    sifted.1 = whole.1 ∧ Sifted whole.2 sifted.2 := by
  induction documents generalizing position other state with
  | nil => exact ⟨rfl, rfl, rfl⟩
  | cons document rest ih =>
    cases hdocument : succeeds mapper (some state.store.idKey) document with
    | false =>
      obtain ⟨event, hevent⟩ := saveOne_of_not_succeeds hdocument position
      rw [saveFrom_of_saveOne hevent] at hfile ⊢
      rw [List.filter_cons_of_neg (by simp [hdocument])]
      obtain ⟨hstate, hsifted⟩ := ih (position + 1) other state fun place fault hmem =>
        hfile place fault (List.mem_cons_of_mem event hmem)
      exact ⟨hstate, hsifted.error event⟩
    | true =>
      obtain ⟨after, id, hkey, hsave⟩ | ⟨after, fault, hfault⟩ := saveOne_of_succeeds hdocument
      · rw [saveFrom_of_saveOne (hsave position)] at hfile ⊢
        rw [List.filter_cons_of_pos hdocument, saveFrom_of_saveOne (hsave other), ← hkey]
        obtain ⟨hstate, hsifted⟩ := ih (position + 1) (other + 1) after hfile
        exact ⟨hstate, hsifted.ok id⟩
      · rw [saveFrom_of_saveOne (hfault position)] at hfile
        exact absurd List.mem_cons_self (hfile position fault)

lemma Sifted.reports {outcomes kept : List (Except Event String)} (h : Sifted outcomes kept)
    (type : String) :
    let whole := summary "Created" type outcomes
    let sifted := summary "Created" type kept
    sifted.output = whole.output ∧ sifted.failure = whole.failure ∧
    (whole.failure = none →
      (∃ failed, whole.log = failed ++ [.info
          s!"Created {whole.output.length} {type} records ({failed.length} failed)"] ∧
        whole.output.length + failed.length = outcomes.length) ∧
      whole.output.length = kept.length) := by
  have hall := length_outputs_add outcomes
  have hkept := length_outputs_add kept
  rw [h.events, h.outputs] at hkept
  exact ⟨h.outputs, rfl, fun _ => ⟨⟨Run.events outcomes, rfl, hall⟩, hkept⟩⟩

lemma savingKey?_of_openStore {tree : FileTree} {context : TypeContext} {store : RecordStore}
    (h : openStore tree context = .ok store) :
    savingKey? context.type true = some store.idKey := by
  obtain ⟨storage, hstorage, -, hkey⟩ := openStore_ok h
  rw [savingKey?, if_pos rfl, hstorage, hkey]
  rfl

end Run

namespace Invocation

open Run

variable {config entityType input kept : String} {save : Bool} {workspace : Workspace}
  {context : TypeContext} {documents : List Json}

lemma run_printing (hcontext : loadContext workspace.tree config entityType = .ok context)
    (hread : readDocuments workspace.tree input = .ok documents) :
    (⟨config, .create entityType input false⟩ : Invocation).run workspace =
      (workspace, summary "Created" context.type.id
        (outcomesFrom (printOne context.mapper) 1 documents)) := by
  simp only [run, createPrinting, hcontext, hread]

/-- A creation that saves stops before it reads its documents, or saves each of them. -/
lemma run_saving_cases (hcontext : loadContext workspace.tree config entityType = .ok context) :
    (∃ causes, ∀ input, (⟨config, .create entityType input true⟩ : Invocation).run workspace =
      (workspace, .failed [] causes)) ∨
    ∃ store, openStore workspace.tree context = .ok store ∧
      ∀ input documents, readDocuments workspace.tree input = .ok documents →
        let saved := saveFrom context.mapper 1 documents ⟨workspace.tree, workspace.supply, store⟩
        (⟨config, .create entityType input true⟩ : Invocation).run workspace =
          (⟨saved.1.tree, saved.1.supply⟩, summary "Created" context.type.id saved.2) := by
  by_cases hreadOnly : context.type.readOnly
  · left
    refine ⟨[s!"Entity type '{context.type.id}' is read-only"], fun input => ?_⟩
    simp only [run, createSaving, hcontext, hreadOnly, if_true]
  · cases hstore : openStore workspace.tree context with
    | error causes =>
      left
      refine ⟨causes, fun input => ?_⟩
      simp only [run, createSaving, hcontext, hreadOnly, hstore]
      rfl
    | ok store =>
      right
      refine ⟨store, rfl, fun input documents hread => ?_⟩
      simp only [run, createSaving, hcontext, hreadOnly, hstore, hread]
      rfl

/-- A document that fails never affects the others. Without the documents that fail, a creation that
prints or saves leaves the same files and the same identifiers to give, and has the same output, if
no file failed. Unless the command stops before its documents, it counts a line of output for each
document that does not fail and an event for each one that does. -/
theorem run_create_filter
    (hcontext : loadContext workspace.tree config entityType = .ok context)
    (hinput : readDocuments workspace.tree input = .ok documents)
    (hkept : readDocuments workspace.tree kept = .ok (documents.filter
      (succeeds context.mapper (savingKey? context.type save))))
    (hfile : ∀ position fault, fileEvent position fault ∉
      ((⟨config, .create entityType input save⟩ : Invocation).run workspace).2.log) :
    let whole := (⟨config, .create entityType input save⟩ : Invocation).run workspace
    let sifted := (⟨config, .create entityType kept save⟩ : Invocation).run workspace
    sifted.1 = whole.1 ∧ sifted.2.output = whole.2.output ∧
    sifted.2.failure = whole.2.failure ∧
    (whole.2.failure = none →
      (∃ failed, whole.2.log = failed ++ [.info s!"Created {whole.2.output.length
          } {context.type.id} records ({failed.length} failed)"] ∧
        whole.2.output.length + failed.length = documents.length) ∧
      whole.2.output.length = (documents.filter
        (succeeds context.mapper (savingKey? context.type save))).length) := by
  intro whole sifted
  cases save with
  | false =>
    have hwhole : whole = _ := run_printing hcontext hinput
    have hsifted : sifted = _ := run_printing hcontext hkept
    have hreports := (sifted_printing context.mapper documents 1 1).reports context.type.id
    simp only [length_outcomesFrom] at hreports
    rw [hwhole, hsifted]
    exact ⟨rfl, hreports⟩
  | true =>
    obtain ⟨causes, hstopped⟩ | ⟨store, hstore, hsaved⟩ := run_saving_cases hcontext
    · have hwhole : whole = _ := hstopped input
      have hsifted : sifted = _ := hstopped kept
      rw [hwhole, hsifted]
      exact ⟨rfl, rfl, rfl, fun hnone => by cases hnone⟩
    · have hkey := savingKey?_of_openStore hstore
      have hwhole : whole = _ := hsaved input documents hinput
      have hsifted : sifted = _ := hsaved kept _ hkept
      have hevents (place : Nat) (fault : FileFault) : fileEvent place fault ∉ events
          (saveFrom context.mapper 1 documents ⟨workspace.tree, workspace.supply, store⟩).2 := by
        intro hmem
        apply hfile place fault
        rw [hsaved input documents hinput]
        exact List.mem_append_left _ hmem
      obtain ⟨hstate, houtcomes⟩ := sifted_saving context.mapper documents 1 1 _ hevents
      have hreports := houtcomes.reports context.type.id
      simp only [length_saveFrom] at hreports
      rw [hwhole, hsifted, hkey, hstate]
      exact ⟨rfl, hreports⟩

end Invocation

namespace Call

/-- A row that holds no entity values, and the row of a book. -/
def mixedText : String := "\x7b\"title\": \"Emma\"\x7d\n" ++ newText ++ "\n"

def misprint : Json := .object [("title", .string "Emma")]

/-- The shop with a file that has a book and a document that fails. -/
def mixed : FileTree := shopWith [(⟨"/mixed.jsonl"⟩, .file mixedText)]

lemma loadContext_mixed :
    Run.loadContext mixed "xentity.yaml" "book" = .ok ⟨shopProject, bookType, bookMapper⟩ := by
  refine loadContext_shopWith ?_
  have hentry : mixed.entry? ["entity_types"] = some .directory := rfl
  simp only [mixed] at hentry
  simp only [FileTree.list, locate_types, hentry]
  decide

lemma readDocuments_mixed : readDocuments mixed "mixed.jsonl" = .ok [misprint, newBook] := by
  have hlook : mixed.look ⟨"mixed.jsonl"⟩ = .ok (.file mixedText) := by
    rw [FileTree.look, FileTree.locate_relative (by decide) (by decide) (by decide) (by decide)]
    rfl
  have hread : documentsOf mixedText.toList = .ok [misprint, newBook] := by cbv
  simp only [readDocuments, FileTree.read, hlook, hread]

lemma filter_mixed : [misprint, newBook].filter
    (Run.succeeds bookMapper (Run.savingKey? bookType true)) = [newBook] := rfl

/-- The creation that saves the documents of a file of the shop. -/
def savingOf (input : String) : Invocation := ⟨"xentity.yaml", .create "book" input true⟩

def misprintFault : DefinitionFault := .wrongType (.text "Emma") "a sequence"

lemma run_mixed : ((savingOf "mixed.jsonl").run ⟨mixed, .ofNumber 0⟩).2 =
    ⟨["7"], [Run.skipped 1 "skipping malformed entity values" misprintFault.message,
      .info "Created 1 book records (1 failed)"], none⟩ := by
  have hbooks : mixed.entry? ["books.json"] = none := rfl
  have hvalues : entityValues misprint = .error misprintFault := rfl
  have hfails : Run.createOne bookMapper 1 misprint =
      .error (Run.skipped 1 "skipping malformed entity values" misprintFault.message) := by
    simp only [Run.createOne, hvalues]
  have hcreated : Run.createOne bookMapper 2 newBook = .ok emma := rfl
  have hopen : Run.openStore mixed ⟨shopProject, bookType, bookMapper⟩ = .ok bookStore :=
    openStore_shopWith hbooks
  have hsave : RecordStore.State.save emma ⟨mixed, .ofNumber 0, bookStore⟩ = _ :=
    save_emma hbooks
  simp only [savingOf, Invocation.run, Run.createSaving, loadContext_mixed, hopen,
    readDocuments_mixed, Run.saveFrom, Run.saveOne, hfails, hcreated, hsave]
  rfl

/-- The document that fails is skipped, and the book is saved as it is without it. -/
theorem run_create_filter_mixed :
    readDocuments mixed "mixed.jsonl" = .ok [misprint, newBook] ∧
    readDocuments mixed "new.json" = .ok [newBook] ∧
    ((savingOf "mixed.jsonl").run ⟨mixed, .ofNumber 0⟩).2.output = ["7"] ∧
    ((savingOf "new.json").run ⟨mixed, .ofNumber 0⟩).1 =
      ((savingOf "mixed.jsonl").run ⟨mixed, .ofNumber 0⟩).1 ∧
    ((savingOf "new.json").run ⟨mixed, .ofNumber 0⟩).2.output = ["7"] := by
  have hnew : readDocuments mixed "new.json" = .ok [newBook] := readDocuments_shopWith _
  have hfile (position : Nat) (fault : FileFault) : Run.fileEvent position fault ∉
      ((savingOf "mixed.jsonl").run ⟨mixed, .ofNumber 0⟩).2.log := by
    rw [run_mixed]
    simp [Run.fileEvent, Run.skipped, Event.info]
  have hkept : readDocuments mixed "new.json" = .ok ([misprint, newBook].filter
      (Run.succeeds bookMapper (Run.savingKey? bookType true))) := by
    rw [filter_mixed, hnew]
  obtain ⟨hfiles, houtput, -, -⟩ := @Invocation.run_create_filter "xentity.yaml" "book"
    "mixed.jsonl" "new.json" true ⟨mixed, .ofNumber 0⟩ _ _ loadContext_mixed readDocuments_mixed
    hkept hfile
  have hseven : ((savingOf "mixed.jsonl").run ⟨mixed, .ofNumber 0⟩).2.output = ["7"] := by
    rw [run_mixed]
  exact ⟨readDocuments_mixed, hnew, hseven, hfiles, houtput.trans hseven⟩

end Call

end RecordMapping

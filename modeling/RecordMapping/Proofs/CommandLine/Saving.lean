import RecordMapping.CommandLine.Identifiers
import RecordMapping.CommandLine.Run
import RecordMapping.Proofs.Files.Frames
import RecordMapping.Proofs.Store.Reopening

/-!
# What commands write

Commands are functions of the files, and all but two give the tree back that they were given. A
saving creation goes through its checks before it saves anything, and then every save writes the
file of one store. Main statement: in a run of commands that starts no project, what differs from
before was written by a saving creation, and is the file of the storage it names or a directory on
the way to it that was missing.
-/

namespace RecordMapping

namespace RecordStore

open Records

lemma writes_persist (store : RecordStore) (tree : FileTree) :
    FileTree.Writes store.path tree (store.persist tree).1 := by
  unfold persist
  cases habove : store.path.parent? with
  | none =>
    dsimp only
    split
    · rename_i hwrite
      exact FileTree.writes_write hwrite
    · exact .refl tree
  | some parent =>
    have hmaking := FileTree.writes_makeDirectories habove tree
    dsimp only
    split
    · rename_i hmade
      rw [hmade] at hmaking
      exact hmaking
    · rename_i hmade
      rw [hmade] at hmaking
      split
      · rename_i hwrite
        exact hmaking.trans (FileTree.writes_write hwrite)
      · exact hmaking

namespace State

lemma writes_save (record : Json) (state : State) :
    (state.save record).1.store.path = state.store.path ∧
      FileTree.Writes state.store.path state.tree (state.save record).1.tree := by
  by_cases h : ∃ id kept, Identified state.store.idKey state.supply.next id record kept
  · obtain ⟨id, kept, hkept⟩ := h
    obtain ⟨supply, -, hsave⟩ := save_of_identified hkept
    rw [hsave]
    refine ⟨rfl, ?_⟩
    exact writes_persist
      { state.store with records := put state.store.idKey id kept state.store.records } state.tree
  · rw [save_of_not_identified fun id kept hkept => h ⟨id, kept, hkept⟩]
    exact ⟨rfl, .refl state.tree⟩

end State

end RecordStore

namespace Run

section Documents

variable {mapper : Mapper} {position : Nat} {document raw : Json}

/-- Whether the raw document of a document can be created. -/
def CanCreate (mapper : Mapper) (document : Json) : Prop :=
  ∃ values raw, entityValues document = .ok values ∧ mapper.create values = .ok raw

lemma canCreate_of_createOne (h : createOne mapper position document = .ok raw) :
    CanCreate mapper document := by
  unfold createOne at h
  split at h
  · cases h
  · rename_i values hvalues
    split at h
    · cases h
    · rename_i created hcreated
      exact ⟨values, created, hvalues, hcreated⟩

lemma saveOne_cases (mapper : Mapper) (position : Nat) (document : Json)
    (state : RecordStore.State) :
    (saveOne mapper position document state).1 = state ∨
      CanCreate mapper document ∧
        ∃ raw, (saveOne mapper position document state).1 = (state.save raw).1 := by
  unfold saveOne
  split
  · exact .inl rfl
  · rename_i raw hcreated
    refine .inr ⟨canCreate_of_createOne hcreated, raw, ?_⟩
    split
    · rename_i hsave
      rw [hsave]
    · rename_i hsave
      rw [hsave]

lemma saveFrom_cons (mapper : Mapper) (position : Nat) (document : Json) (rest : List Json)
    (state : RecordStore.State) :
    (saveFrom mapper position (document :: rest) state).1 =
      (saveFrom mapper (position + 1) rest (saveOne mapper position document state).1).1 := rfl

lemma writes_saveFrom (mapper : Mapper) (position : Nat) (documents : List Json)
    (state : RecordStore.State) :
    FileTree.Writes state.store.path state.tree
      (saveFrom mapper position documents state).1.tree := by
  induction documents generalizing position state with
  | nil => exact .refl state.tree
  | cons document rest ih =>
    rw [saveFrom_cons]
    obtain hsame | ⟨-, raw, hsave⟩ := saveOne_cases mapper position document state
    · rw [hsame]
      exact ih (position + 1) state
    · obtain ⟨hpath, hwrites⟩ := state.writes_save raw
      rw [hsave]
      exact hwrites.trans (hpath ▸ ih (position + 1) (state.save raw).1)

lemma saveFrom_of_not_canCreate {documents : List Json}
    (h : ∀ document ∈ documents, ¬ CanCreate mapper document) (position : Nat)
    (state : RecordStore.State) : (saveFrom mapper position documents state).1 = state := by
  induction documents generalizing position with
  | nil => rfl
  | cons document rest ih =>
    obtain ⟨hdocument, hrest⟩ := List.forall_mem_cons.mp h
    have hsame := (saveOne_cases mapper position document state).resolve_right
      fun hcreated => hdocument hcreated.1
    rw [saveFrom_cons, hsame]
    exact ih hrest (position + 1)

end Documents

section Commands

variable {tree : FileTree} {config entityType input : String}

/-- Whether a saving creation has something to save, and the path of the file that it saves to: the
entity type is known, its mapping is valid, it is not read-only and it has a storage, and a raw
document can be created of one of the documents that are read. -/
inductive CanSave (tree : FileTree) (config entityType input : String) : FilePath → Prop where
  | intro {project : Project} {type : EntityTypeConfig} {mapper : Mapper} {storage : FileStorage}
      {documents : List Json} {document : Json} (loads : Project.load tree ⟨config⟩ = .ok project)
      (known : project.type tree entityType = .ok type) (valid : project.mapper type = .ok mapper)
      (writable : type.readOnly = false) (stored : type.storage = some (.file storage))
      (read : readDocuments tree input = .ok documents) (given : document ∈ documents)
      (creates : CanCreate mapper document) :
      CanSave tree config entityType input (project.base.join ⟨storage.path⟩)

lemma loadContext_ok {context : TypeContext}
    (h : loadContext tree config entityType = .ok context) :
    Project.load tree ⟨config⟩ = .ok context.project ∧
      context.project.type tree entityType = .ok context.type ∧
      context.project.mapper context.type = .ok context.mapper := by
  unfold loadContext at h
  split at h
  · cases h
  · rename_i project hload
    unfold loadProject at hload
    split at hload
    · rename_i loaded hloaded
      obtain rfl := Except.ok.inj hload
      split at h
      · cases h
      · rename_i type htype
        split at h
        · cases h
        · rename_i mapper hmapper
          obtain rfl := Except.ok.inj h
          exact ⟨hloaded, htype, hmapper⟩
    · cases hload

lemma openStore_ok {context : TypeContext} {store : RecordStore}
    (h : openStore tree context = .ok store) :
    ∃ storage, context.type.storage = some (.file storage) ∧
      store.path = context.project.base.join ⟨storage.path⟩ ∧ store.idKey = storage.idKey := by
  unfold openStore Project.openStore at h
  split at h
  · rename_i opened hopened
    obtain rfl := Except.ok.inj h
    split at hopened
    · cases hopened
    · rename_i stored hstored
      obtain ⟨storage⟩ := stored
      refine ⟨storage, hstored, ?_⟩
      split at hopened
      · cases hopened
      · rename_i result hresult
        obtain rfl := Except.ok.inj hopened
        rw [(RecordStore.openFile_ok hresult).1]
        exact ⟨rfl, rfl⟩
  · cases h

/-- A saving creation either leaves the files alone or writes the file of the storage it names. -/
lemma createSaving_cases (workspace : Workspace) (config entityType input : String) :
    (createSaving workspace config entityType input).1.tree = workspace.tree ∨
      ∃ path, CanSave workspace.tree config entityType input path ∧
        FileTree.Writes path workspace.tree
          (createSaving workspace config entityType input).1.tree := by
  unfold createSaving
  split
  · exact .inl rfl
  · rename_i context hcontext
    split
    · exact .inl rfl
    · rename_i hreadOnly
      split
      · exact .inl rfl
      · rename_i store hstore
        split
        · exact .inl rfl
        · rename_i documents hdocuments
          dsimp only
          by_cases hcreates : ∃ document ∈ documents, CanCreate context.mapper document
          · obtain ⟨document, hdocument, hcreates⟩ := hcreates
            obtain ⟨hload, htype, hmapper⟩ := loadContext_ok hcontext
            obtain ⟨storage, hstorage, hpath, -⟩ := openStore_ok hstore
            refine .inr ⟨context.project.base.join ⟨storage.path⟩,
              .intro hload htype hmapper (by simpa using hreadOnly) hstorage hdocuments hdocument
                hcreates, ?_⟩
            rw [← hpath]
            exact writes_saveFrom context.mapper 1 documents
              ⟨workspace.tree, workspace.supply, store⟩
          · left
            rw [saveFrom_of_not_canCreate fun document hdocument hcan =>
              hcreates ⟨document, hdocument, hcan⟩]

end Commands

end Run

/-- A command that is run, with the identifiers that it may give. -/
structure Call where
  invocation : Invocation
  supply : IdSupply

namespace Call

variable {call : Call} {calls : List Call} {tree : FileTree}

def run (call : Call) (tree : FileTree) : FileTree :=
  (call.invocation.run ⟨tree, call.supply⟩).1.tree

def runAll (calls : List Call) (tree : FileTree) : FileTree :=
  calls.foldl (fun tree call => call.run tree) tree

def Starts (call : Call) : Prop := ∃ path name, call.invocation.command = .init path name

/-- Whether a command is a creation that has something to save and that writes nothing but the file
of the storage it saves to, and directories that are missing on the way to it. -/
inductive Saves (call : Call) (tree : FileTree) : Prop where
  | intro {entityType input : String} {path : FilePath}
      (command : call.invocation.command = .create entityType input true)
      (can : Run.CanSave tree call.invocation.config entityType input path)
      (start : (call.run tree).start = tree.start)
      (written : ∀ place, (call.run tree).at? place ≠ tree.at? place →
        FileTree.WrittenAt path tree (call.run tree) place) : Saves call tree

lemma run_cases (h : ¬ call.Starts) (tree : FileTree) :
    call.run tree = tree ∨ call.Saves tree := by
  obtain ⟨⟨config, command⟩, supply⟩ := call
  cases command with
  | init path name => exact absurd ⟨path, name, rfl⟩ h
  | validate => exact .inl rfl
  | status => exact .inl rfl
  | list entityType limit offset => exact .inl rfl
  | extract entityType input => exact .inl rfl
  | create entityType input save =>
    cases save with
    | false => exact .inl rfl
    | true =>
      obtain hsame | ⟨path, hcan, hwrites⟩ :=
        Run.createSaving_cases ⟨tree, supply⟩ config entityType input
      · exact .inl hsame
      · exact .inr (.intro rfl hcan hwrites.start_eq fun place hplace => hwrites.writtenAt hplace)

/-- Only saving writes. A command that starts no project leaves all files as they are unless it is a
saving creation of a known type that has a valid mapping and a storage, is not read-only and gives
it a raw document; then it writes the file of the storage and directories that are missing on the
way to it. What differs after a run of commands was written by such a command of the run. -/
theorem runAll_writes (hcalls : ∀ call ∈ calls, ¬ call.Starts) (tree : FileTree) :
    (∀ call ∈ calls, ∀ before, call.run before = before ∨ call.Saves before) ∧
    ∀ place, (runAll calls tree).at? place ≠ tree.at? place →
      ∃ earlier call later, calls = earlier ++ call :: later ∧
        call.Saves (runAll earlier tree) ∧
        (call.run (runAll earlier tree)).at? place ≠ (runAll earlier tree).at? place := by
  refine ⟨fun call hcall => run_cases (hcalls call hcall), fun place hplace => ?_⟩
  induction calls generalizing tree with
  | nil => exact absurd rfl hplace
  | cons call rest ih =>
    obtain ⟨hcall, hrest⟩ := List.forall_mem_cons.mp hcalls
    by_cases hfirst : (call.run tree).at? place = tree.at? place
    · obtain ⟨earlier, later, after, rfl, hsaves, hchanged⟩ :=
        ih hrest (call.run tree) (hfirst ▸ hplace)
      exact ⟨call :: earlier, later, after, rfl, hsaves, hchanged⟩
    · have hsaves := (run_cases hcall tree).resolve_left fun hsame =>
        hfirst (congrArg (FileTree.at? place) hsame)
      exact ⟨[], call, rest, rfl, hsaves, hfirst⟩

section Shop

/-- An entity type with the mappings that are required and a file for its records. -/
def bookText : String :=
  "id: book\nfield_mapper:\n  field_mappings:\n    id:\n      value: id\n    title:\n" ++
    "      value: caption\nstorage:\n  type: file\n  path: books.json\n"

def newText : String :=
  "\x7b\"id\": [\x7b\"value\": \"7\"\x7d], \"title\": [\x7b\"value\": \"Emma\"\x7d]\x7d"

def shop : FileTree where
  start := []
  entries := [(⟨"/xentity.yaml"⟩, .file "name: shop\n"), (⟨"/entity_types"⟩, .directory),
    (⟨"/entity_types/book.yaml"⟩, .file bookText), (⟨"/new.json"⟩, .file newText)]

def shopWith (more : List (FilePath × FileEntry)) : FileTree :=
  { shop with entries := shop.entries ++ more }

def shopProject : Project := ⟨⟨"shop", "0.1.0", .simple, .empty⟩, ⟨""⟩⟩

def bookMappings : MappingTable :=
  ⟨[("id", ⟨[("value", "id")], by decide⟩), ("title", ⟨[("value", "caption")], by decide⟩)],
    by decide⟩

def bookType : EntityTypeConfig :=
  ⟨"book", none, false, [], ⟨none, some "+", bookMappings⟩,
    some (.file ⟨"books.json", none, "id"⟩)⟩

def bookMapper : Mapper where
  entityType := "book"
  dialect := .simple
  constantMark := some "+"
  mappings := bookMappings
  fields :=
    [⟨.base "id" "ID" .string, [.plain "value" "string"],
      [⟨"value", .primitive .string, .path (.slashed ⟨"id", [.step (.key "id")]⟩)⟩]⟩,
    ⟨.base "uuid" "UUID" .uuid, [.plain "value" "string"], []⟩,
    ⟨.base "title" "Title" .string, [.plain "value" "string"],
      [⟨"value", .primitive .string, .path (.slashed ⟨"caption", [.step (.key "caption")]⟩)⟩]⟩]

def bookStore : RecordStore := ⟨"file:books.json", ⟨"books.json"⟩, .list, "id", []⟩

def newBook : Json :=
  .object [("id", .list [.object [("value", .string "7")]]),
    ("title", .list [.object [("value", .string "Emma")]])]

def emma : Json := .object [("id", .string "7"), ("caption", .string "Emma")]

section Extended

variable (more : List (FilePath × FileEntry))

lemma look_config : (shopWith more).look ⟨"xentity.yaml"⟩ = .ok (.file "name: shop\n") := by
  rw [FileTree.look, FileTree.locate_relative (by decide) (by decide) (by decide) (by decide)]
  rfl

lemma locate_types : (shopWith more).locate ⟨"entity_types"⟩ = .ok ["entity_types"] :=
  FileTree.locate_relative (by decide) (by decide) (by decide) (by decide) (shopWith more)

lemma look_book : (shopWith more).look ⟨"entity_types/book.yaml"⟩ = .ok (.file bookText) := by
  rw [FileTree.look, FileTree.locate_relative (by decide) (by decide) (by decide) (by decide)]
  rfl

lemma look_new : (shopWith more).look ⟨"new.json"⟩ = .ok (.file newText) := by
  rw [FileTree.look, FileTree.locate_relative (by decide) (by decide) (by decide) (by decide)]
  rfl

lemma locate_books : (shopWith more).locate ⟨"books.json"⟩ = .ok ["books.json"] :=
  FileTree.locate_relative (by decide) (by decide) (by decide) (by decide) (shopWith more)

lemma load_shop : Project.load (shopWith more) ⟨"xentity.yaml"⟩ = .ok shopProject := by
  have hdecode : Project.decodeText ProjectConfig.members.shape ProjectConfig.decode
      "name: shop\n" = .ok shopProject.config := by cbv
  have hparent : FilePath.parent? ⟨"xentity.yaml"⟩ = some ⟨""⟩ := by decide
  have hdirectory : (shopWith more).hasDirectory ⟨"xentity.yaml"⟩ = false := by
    simp only [FileTree.hasDirectory, look_config]
  have hhas : (shopWith more).has ⟨"xentity.yaml"⟩ = true := by
    rw [FileTree.has, look_config]
    rfl
  simp only [Project.load, hdirectory, hhas, hparent, Project.decodeFile, FileTree.read,
    look_config, hdecode, Bool.not_true, Bool.false_eq_true, if_false]
  rfl

end Extended

/-- The text of the entity type comes to these nodes. -/
def bookNode : Yaml.Node :=
  let word (text : String) : Yaml.Node := .scalar none .plain text
  .mapping none [(word "id", word "book"),
    (word "field_mapper", .mapping none [(word "field_mappings", .mapping none [
      (word "id", .mapping none [(word "value", word "id")]),
      (word "title", .mapping none [(word "value", word "caption")])])]),
    (word "storage", .mapping none [(word "type", word "file"), (word "path", word "books.json")])]

lemma decodeText_bookText : Project.decodeText EntityTypeConfig.members.shape
    EntityTypeConfig.decode bookText = .ok bookType := by
  have hnodes : (Yaml.tokens? bookText.toList).bind Yaml.Document.ofTokens? =
      some ⟨bookNode, []⟩ := by cbv
  rw [Project.decodeText, Yaml.read?, hnodes]
  rfl

section Extended

variable {more : List (FilePath × FileEntry)}

lemma type_shop (hlist : (shopWith more).list ⟨"entity_types"⟩ = .ok ["book.yaml"]) :
    shopProject.type (shopWith more) "book" = .ok bookType := by
  have hdirectory : shopProject.base.join Project.typesName = ⟨"entity_types"⟩ := by decide
  have hentry : FileTree.entry? (shopWith more) ["entity_types"] = some .directory := rfl
  have hhas : (shopWith more).has ⟨"entity_types"⟩ = true := by
    simp only [FileTree.has, FileTree.look, locate_types, hentry]
    rfl
  have hfilter : ["book.yaml"].filter (fun name =>
      let extension := (FilePath.mk name).extension?
      extension == some "yaml" || extension == some "yml") = ["book.yaml"] := by decide
  have hfiles : shopProject.typeFiles (shopWith more) = .ok [⟨"entity_types/book.yaml"⟩] := by
    simp only [Project.typeFiles, hdirectory, hhas, hlist, hfilter, List.mergeSort_singleton]
    rfl
  simp only [Project.type, Project.types, hfiles, Project.readTypes, Project.decodeFile,
    FileTree.read, look_book, decodeText_bookText]
  rfl

lemma loadContext_shopWith (hlist : (shopWith more).list ⟨"entity_types"⟩ = .ok ["book.yaml"]) :
    Run.loadContext (shopWith more) "xentity.yaml" "book" =
      .ok ⟨shopProject, bookType, bookMapper⟩ := by
  have hmapper : shopProject.mapper bookType = .ok bookMapper := rfl
  simp only [Run.loadContext, Run.loadProject, load_shop, type_shop hlist, hmapper]

lemma openStore_shopWith (hbooks : FileTree.entry? (shopWith more) ["books.json"] = none) :
    Run.openStore (shopWith more) ⟨shopProject, bookType, bookMapper⟩ = .ok bookStore := by
  have hpath : shopProject.base.join ⟨"books.json"⟩ = ⟨"books.json"⟩ := by decide
  have hnone : (shopWith more).readIfAny ⟨"books.json"⟩ = .ok none := by
    simp only [FileTree.readIfAny, FileTree.read, FileTree.look, locate_books, hbooks]
  simp only [Run.openStore, Project.openStore, bookType, RecordStore.openConfig,
    RecordStore.openFile, hpath, hnone]
  rfl

lemma readDocuments_shopWith (more : List (FilePath × FileEntry)) :
    readDocuments (shopWith more) "new.json" = .ok [newBook] := by
  have hread : Json.read? newText.toList = some newBook := by cbv
  simp only [readDocuments, FileTree.read, look_new, documentsOf, hread]
  rfl

lemma persist_shopWith (hbooks : FileTree.entry? (shopWith more) ["books.json"] = none)
    (records : List Json) :
    { bookStore with records := records }.persist (shopWith more) =
      ((shopWith more).put ["books.json"]
        (.file { bookStore with records := records }.fileText), none) := by
  have hparent : FilePath.parent? ⟨"books.json"⟩ = some ⟨""⟩ := by decide
  have hhere : FileTree.pathFault? ⟨""⟩ = some .missing := by cbv
  simp only [RecordStore.persist, bookStore, hparent, FileTree.makeDirectories, hhere,
    FileTree.write, locate_books, hbooks]

lemma save_emma (hbooks : FileTree.entry? (shopWith more) ["books.json"] = none) :
    RecordStore.State.save emma ⟨shopWith more, .ofNumber 0, bookStore⟩ =
      (⟨(shopWith more).put ["books.json"] (.file { bookStore with records := [emma] }.fileText),
        .ofNumber 0, { bookStore with records := [emma] }⟩, .ok "7") := by
  have hown : recordId bookStore.idKey emma = some "7" := by decide
  have hidentify : Records.identify? bookStore.idKey (IdSupply.ofNumber 0).next emma =
      some ("7", emma) := Records.identify?_eq_some_iff.mpr (.own hown)
  have hput : Records.put bookStore.idKey "7" emma bookStore.records = [emma] := rfl
  simp only [RecordStore.State.save, hown, hidentify, RecordStore.State.change, hput,
    persist_shopWith hbooks, Option.isSome_some, if_true]

end Extended

lemma shop_eq : shop = shopWith [] := rfl

lemma list_shop : (shopWith []).list ⟨"entity_types"⟩ = .ok ["book.yaml"] := by
  have hentry : FileTree.entry? (shopWith []) ["entity_types"] = some .directory := rfl
  simp only [FileTree.list, locate_types, hentry]
  decide

def checking : Call := ⟨⟨"xentity.yaml", .validate⟩, .ofNumber 0⟩

def saving : Call := ⟨⟨"xentity.yaml", .create "book" "new.json" true⟩, .ofNumber 0⟩

lemma run_saving : saving.run shop =
    shop.put ["books.json"] (.file { bookStore with records := [emma] }.fileText) := by
  have hcreated : Run.createOne bookMapper 1 newBook = .ok emma := rfl
  have hbooks : FileTree.entry? (shopWith []) ["books.json"] = none := rfl
  simp only [shop_eq, Call.run, saving, Invocation.run, Run.createSaving,
    loadContext_shopWith list_shop, openStore_shopWith hbooks, readDocuments_shopWith, Run.saveFrom,
    Run.saveOne, hcreated, save_emma hbooks]
  rfl

/-- Checking the shop changes no file, and saving the new book makes the file of the store. -/
theorem runAll_writes_shop :
    (∀ call ∈ [checking, saving], ¬ call.Starts) ∧ checking.run shop = shop ∧
    saving.Saves shop ∧
    (runAll [checking, saving] shop).at? ⟨"/books.json"⟩ ≠ shop.at? ⟨"/books.json"⟩ := by
  have hcalls : ∀ call ∈ [checking, saving], ¬ call.Starts := by
    simp [Call.Starts, checking, saving]
  obtain ⟨hsteps, -⟩ := runAll_writes hcalls shop
  have hplace : (⟨"/books.json"⟩ : FilePath) = FileTree.absolute ["books.json"] := by decide
  have hbefore : shop.at? ⟨"/books.json"⟩ = none := rfl
  have hafter : (saving.run shop).at? ⟨"/books.json"⟩ ≠ shop.at? ⟨"/books.json"⟩ := by
    rw [hbefore, run_saving, hplace, FileTree.at?_put_self]
    simp
  have hsaves := (hsteps saving (by simp) shop).resolve_left fun hsame =>
    hafter (congrArg (FileTree.at? ⟨"/books.json"⟩) hsame)
  exact ⟨hcalls, rfl, hsaves, hafter⟩

end Shop

end Call

end RecordMapping

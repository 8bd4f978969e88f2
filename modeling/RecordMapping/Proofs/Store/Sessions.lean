import RecordMapping.Proofs.Store.Runs

/-!
# Sessions with a store

A session is a list of requests to a store: questions, changes and openings of its file. What a
store holds in memory is known from its answers, and memory never depends on the files.
-/

namespace RecordMapping

namespace RecordStore

inductive Inquiry where
  | load (id : String)
  | loadAll (ids : List String)
  | query (query : RecordQuery)
  | count (filters : List RecordFilter)

inductive Answer where
  | record (found : Option Json)
  | records (found : List Json)
  | number (found : Nat)

def answerTo (store : RecordStore) : Inquiry → Answer
  | .load id => .record (store.load id)
  | .loadAll ids => .records (store.loadAll ids)
  | .query query => .records (store.query query)
  | .count filters => .number (store.count filters)

lemma query_all (store : RecordStore) : store.query .all = store.records := by
  have hfilter : store.records.filter (RecordQuery.admits []) = store.records :=
    List.filter_eq_self.mpr fun _ _ => rfl
  have hsorted : store.records.Pairwise fun a b => (compareBy [] a b).isLE :=
    List.pairwise_of_forall fun _ _ => rfl
  simp only [query, RecordQuery.apply, RecordQuery.all, hfilter,
    List.mergeSort_of_pairwise hsorted, List.drop_zero]

lemma records_eq_of_answerTo {store other : RecordStore}
    (h : ∀ inquiry, store.answerTo inquiry = other.answerTo inquiry) :
    store.records = other.records := by
  have hall := Answer.records.inj (h (.query .all))
  rwa [query_all, query_all] at hall

inductive Reply where
  | answered (answer : Answer)
  | saved (id : String)
  | deleted
  | opened
  | failed (error : StoreError)

/-- A request in a session: a question, a change, or opening the file once more. -/
inductive Request where
  | ask (inquiry : Inquiry)
  | change (change : Change)
  | reopen

namespace State

def reply (state : State) : Change → Reply
  | .save record =>
    match (state.save record).2 with
    | .ok id => .saved id
    | .error error => .failed error
  | .delete id =>
    match (state.delete id).2 with
    | .ok () => .deleted
    | .error error => .failed error

def serve (base : FilePath) (config : FileStorage) (state : State) : Request → State × Reply
  | .ask inquiry => (state, .answered (state.store.answerTo inquiry))
  | .change change => (state.apply change, state.reply change)
  | .reopen =>
    match openFile state.tree base config with
    | .ok store => ({ state with store := store }, .opened)
    | .error error => (state, .failed error)

def after (base : FilePath) (config : FileStorage) (state : State) (requests : List Request) :
    State :=
  requests.foldl (fun state request => (state.serve base config request).1) state

def replies (base : FilePath) (config : FileStorage) : List Request → State → List Reply
  | [], _ => []
  | request :: rest, state =>
    (state.serve base config request).2 ::
      replies base config rest (state.serve base config request).1

def withTree (tree : FileTree) (state : State) : State := { state with tree := tree }

lemma apply_save (state : State) (record : Json) :
    state.apply (.save record) =
      match Records.identify? state.store.idKey state.supply.next record with
      | none => state
      | some (id, kept) =>
        (state.change (Records.put state.store.idKey id kept state.store.records)
          (if (recordId state.store.idKey record).isSome then state.supply
            else state.supply.advance)).1 := by
  simp only [apply, save]
  cases Records.identify? state.store.idKey state.supply.next record with
  | none => rfl
  | some named => exact congrArg Prod.fst (answer_change named.1 _)

lemma apply_delete (state : State) (id : String) :
    state.apply (.delete id) =
      if (Records.remove state.store.idKey id state.store.records).length =
        state.store.records.length then state
      else (state.change (Records.remove state.store.idKey id state.store.records)
        state.supply).1 := by
  simp only [apply, delete]
  split
  · rfl
  · exact congrArg Prod.fst (answer_change () _)

lemma change_withTree (records : List Json) (supply : IdSupply) (tree : FileTree) (state : State) :
    ∃ written, ((state.withTree tree).change records supply).1 =
      (state.change records supply).1.withTree written :=
  ⟨_, rfl⟩

lemma apply_withTree (tree : FileTree) (state : State) (change : Change) :
    ∃ written, (state.withTree tree).apply change = (state.apply change).withTree written := by
  cases change with
  | save record =>
    rw [apply_save, apply_save]
    simp only [withTree]
    cases Records.identify? state.store.idKey state.supply.next record with
    | none => exact ⟨tree, rfl⟩
    | some named => exact change_withTree _ _ tree state
  | delete id =>
    have hdelete : (state.withTree tree).apply (.delete id) =
        if (Records.remove state.store.idKey id state.store.records).length =
          state.store.records.length then state.withTree tree
        else ((state.withTree tree).change
          (Records.remove state.store.idKey id state.store.records) state.supply).1 :=
      apply_delete (state.withTree tree) id
    rw [hdelete, apply_delete]
    split
    · exact ⟨tree, rfl⟩
    · exact change_withTree _ _ tree state

lemma run_withTree (tree : FileTree) (state : State) (changes : List Change) :
    ∃ written, (state.withTree tree).run changes = (state.run changes).withTree written := by
  induction changes generalizing tree state with
  | nil => exact ⟨tree, rfl⟩
  | cons change rest ih =>
    obtain ⟨written, happly⟩ := apply_withTree tree state change
    simp only [run, List.foldl_cons, happly]
    exact ih written (state.apply change)

end State

end RecordStore

end RecordMapping

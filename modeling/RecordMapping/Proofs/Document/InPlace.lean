import RecordMapping.Proofs.Document.ReadWrite

/-!
# In place or not at all

A write goes on in the child of the first step, which is made if there is room for it, and puts the
written child back. What is made on the way is null, and every write into null succeeds, so a
document that is written in place is left as it was when the write fails.
-/

namespace RecordMapping

lemma putMember_of_findMember {name : String} {value : Json} {members : List Member}
    (h : findMember name members = some value) : putMember name value members = members := by
  induction members with
  | nil => cases h
  | cons member rest ih =>
    obtain ⟨key, old⟩ := member
    simp only [findMember] at h
    simp only [putMember]
    split at h
    · rename_i hkey
      rw [if_pos hkey, Option.some.inj h]
    · rename_i hkey
      rw [if_neg hkey, ih h]

lemma putMember_of_missing {name : String} {members : List Member}
    (h : findMember name members = none) (value : Json) :
    putMember name value members = members ++ [(name, value)] := by
  induction members with
  | nil => rfl
  | cons member rest ih =>
    obtain ⟨key, old⟩ := member
    simp only [findMember] at h
    split at h
    · cases h
    · rename_i hkey
      simp only [putMember, if_neg hkey, ih h, List.cons_append]

lemma putMember_putMember (name : String) (old value : Json) (members : List Member) :
    putMember name value (putMember name old members) = putMember name value members := by
  induction members with
  | nil => simp [putMember]
  | cons member rest ih =>
    obtain ⟨key, first⟩ := member
    by_cases hkey : key = name
    · simp [putMember, hkey]
    · simp [putMember, hkey, ih]

namespace Json

theorem exists_write_null (value : Json) (path : List Step) :
    ∃ result, write value path .null = .ok result := by
  induction path with
  | nil => exact ⟨value, rfl⟩
  | cons step rest ih =>
    obtain ⟨child, hchild⟩ := ih
    by_cases hzero : step = .index 0
    · subst hzero
      exact ⟨.list [child], by simp [write, updateItem, hchild]⟩
    · have hmember : write value (step :: rest) .null =
          updateMember step (write value rest) [] := by
        rw [← write_opened, opened, if_neg hzero, write]
      exact ⟨.object [(step.text, child)], by
        simp [hmember, updateMember, findMember, putMember, hchild]⟩

lemma withRoom_object (step : Step) (members : List Member) :
    withRoom step (.object members) =
      .object (putMember step.text ((findMember step.text members).getD .null) members) := by
  cases hfound : findMember step.text members with
  | some child =>
    simp only [withRoom, opened, hfound, Option.getD_some, putMember_of_findMember hfound]
  | none => simp only [withRoom, opened, hfound, Option.getD_none, putMember_of_missing hfound]

lemma withRoom_opened (step : Step) (document : Json) :
    (document.opened step).withRoom step = document.withRoom step := by
  have hopened : (document.opened step).opened step = document.opened step := by
    have hne := opened_ne_null step document
    cases hcontainer : document.opened step with
    | null => exact absurd hcontainer hne
    | _ => rfl
  simp only [withRoom, hopened]

/-- A write along a path goes on in the child of its first step, which is made if there is room for
it, and puts the written child back. -/
theorem write_cons_eq (value : Json) (step : Step) (rest : List Step) (document : Json) :
    write value (step :: rest) document =
      match (document.withRoom step).child? step with
      | some child =>
        match write value rest child with
        | .ok written => .ok (putChild step written (document.withRoom step))
        | .error conflict => .error (conflict.below step)
      | none => .error ⟨[step], (document.withRoom step).obstacle step⟩ := by
  rw [← withRoom_opened, ← write_opened]
  have hne := opened_ne_null step document
  generalize document.opened step = container at hne
  cases container with
  | null => exact absurd rfl hne
  | object members =>
    rw [withRoom_object]
    cases hwritten : write value rest ((findMember step.text members).getD .null) <;>
      simp only [write, updateMember, child?, findMember_putMember, if_pos, putChild,
        putMember_putMember, hwritten]
  | list items =>
    cases step with
    | key name => rfl
    | index position =>
      simp only [write, updateItem]
      by_cases hend : position = items.length
      · subst hend
        cases hwritten : write value rest .null <;>
          simp [withRoom, opened, child?, putChild, hwritten]
      · cases hitem : items[position]? with
        | some item =>
          cases hwritten : write value rest item <;>
            simp only [withRoom, opened, if_neg hend, child?, hitem, putChild, hwritten]
        | none => simp only [withRoom, opened, if_neg hend, child?, hitem, obstacle]
  | bool b => rfl
  | number n => rfl
  | string s => rfl

lemma withRoom_eq_self_or (step : Step) (document : Json) :
    document.withRoom step = document ∨ (document.withRoom step).child? step = some .null := by
  cases document with
  | null =>
    right
    by_cases hzero : step = .index 0
    · subst hzero
      rfl
    · simp [withRoom, opened, hzero, findMember, child?]
  | object members =>
    rw [withRoom_object]
    cases hfound : findMember step.text members with
    | some child => exact Or.inl (by rw [Option.getD_some, putMember_of_findMember hfound])
    | none => exact Or.inr (by simp [child?, findMember_putMember])
  | list items =>
    cases step with
    | key name => exact Or.inl rfl
    | index position =>
      by_cases hend : position = items.length
      · exact Or.inr (by simp [withRoom, opened, child?, hend])
      · exact Or.inl (by simp [withRoom, opened, hend])
  | _ => exact Or.inl rfl

lemma withRoom_of_child? {step : Step} {document child : Json}
    (h : document.child? step = some child) : document.withRoom step = document := by
  cases document with
  | object members =>
    rw [child?] at h
    rw [withRoom_object, h, Option.getD_some, putMember_of_findMember h]
  | list items =>
    cases step with
    | key name => rfl
    | index position =>
      have hlt : position < items.length := (List.getElem?_eq_some_iff.mp h).1
      simp only [withRoom, opened, if_neg (Nat.ne_of_lt hlt)]
  | _ => cases h

lemma putChild_of_child? {step : Step} {document child : Json}
    (h : document.child? step = some child) : putChild step child document = document := by
  cases document with
  | object members => rw [putChild, putMember_of_findMember h]
  | list items =>
    cases step with
    | key name => rfl
    | index position =>
      obtain ⟨hlt, rfl⟩ := List.getElem?_eq_some_iff.mp h
      simp only [putChild, List.set_getElem_self]
  | _ => cases h

/-- A failed write in a child was a write in a child that was there before. -/
lemma withRoom_eq_self_of_error {value : Json} {step : Step} {rest : List Step}
    {document child : Json} {conflict : Conflict}
    (hchild : (document.withRoom step).child? step = some child)
    (herror : write value rest child = .error conflict) : document.withRoom step = document := by
  rcases withRoom_eq_self_or step document with hself | hmade
  · exact hself
  · obtain rfl := Option.some.inj (hchild.symm.trans hmade)
    obtain ⟨result, hresult⟩ := exists_write_null value rest
    rw [hresult] at herror
    cases herror

/-- A write in place makes the same document as a write, or leaves the document as it was. -/
theorem writeInPlace_eq (value : Json) (path : List Step) (document : Json) :
    writeInPlace value path document =
      match write value path document with
      | .ok result => (result, none)
      | .error conflict => (document, some conflict) := by
  induction path generalizing document with
  | nil =>
    simp only [writeInPlace, write, replace]
    cases document.isNull <;> cases hkinds : document.isContainer == value.isContainer <;>
      simp [bne, hkinds]
  | cons step rest ih =>
    rw [write_cons_eq]
    simp only [writeInPlace]
    cases hchild : (document.withRoom step).child? step with
    | none =>
      rcases withRoom_eq_self_or step document with hself | hmade
      · simp only [hself]
      · rw [hchild] at hmade
        cases hmade
    | some child =>
      simp only [ih child]
      cases hwrite : write value rest child with
      | ok written => rfl
      | error conflict =>
        have hself := withRoom_eq_self_of_error hchild hwrite
        rw [hself] at hchild
        simp only [hself, putChild_of_child? hchild, Option.map_some]

end Json

end RecordMapping

import RecordMapping.Document.InPlace
import RecordMapping.Proofs.Document.Forks

/-!
# Reading what was written

A value that was written at a path is found there, and whatever lies on a path that forks from it is
found as before. Both follow from what a write does to the children of one container: the child of
the first step is written, the children of steps with other texts stay.
-/

namespace RecordMapping

lemma findMember_putMember (name other : String) (value : Json) (members : List Member) :
    findMember other (putMember name value members) =
      if other = name then some value else findMember other members := by
  induction members with
  | nil =>
    by_cases h : other = name
    · simp [putMember, findMember, h]
    · simp [putMember, findMember, h, Ne.symm h]
  | cons member rest ih =>
    obtain ⟨key, old⟩ := member
    by_cases hk : key = name
    · subst hk
      by_cases h : other = key
      · simp [putMember, findMember, h]
      · simp [putMember, findMember, h, Ne.symm h]
    · by_cases ho : key = other
      · have h : other ≠ name := fun h => hk (ho.trans h)
        simp [putMember, findMember, ho, h]
      · simp [putMember, findMember, hk, ho, ih]

namespace Json

lemma find?_cons (step : Step) (rest : List Step) (document : Json) :
    document.find? (step :: rest) = (document.child? step).bind (find? rest) := rfl

theorem find?_append (p q : List Step) (document : Json) :
    document.find? (p ++ q) = (document.find? p).bind (find? q) := by
  induction p generalizing document with
  | nil => rfl
  | cons step rest ih =>
    rw [List.cons_append, find?_cons, find?_cons, Option.bind_assoc]
    congr 1
    funext child
    exact ih child

lemma find?_null {path : List Step} (h : path ≠ []) : find? path .null = none := by
  cases path with
  | nil => exact absurd rfl h
  | cons step rest => rfl

lemma find?_getD_null (path : List Step) (found : Option Json) :
    ((found.getD .null).find? path).getD .null = (found.bind (find? path)).getD .null := by
  cases found with
  | some value => rfl
  | none =>
    cases path with
    | nil => rfl
    | cons step rest => rfl

lemma opened_ne_null (step : Step) (value : Json) : value.opened step ≠ .null := by
  cases value with
  | null =>
    simp only [opened]
    split <;> simp
  | _ => simp [opened]

@[simp] lemma child?_opened (step other : Step) (value : Json) :
    (value.opened step).child? other = value.child? other := by
  cases value with
  | null =>
    simp only [opened]
    split
    · cases other <;> rfl
    · rfl
  | _ => rfl

lemma write_opened (value : Json) (step : Step) (rest : List Step) (current : Json) :
    write value (step :: rest) (current.opened step) = write value (step :: rest) current := by
  cases current with
  | null =>
    simp only [opened]
    split
    · rename_i h
      subst h
      rfl
    · rename_i h
      cases step with
      | key name => rfl
      | index position =>
        cases position with
        | zero => exact absurd rfl h
        | succ position => rfl
  | _ => rfl

lemma updateMember_ok {step : Step} {change : Json → Except Conflict Json} {members : List Member}
    {result : Json} (h : updateMember step change members = .ok result) :
    ∃ child, change ((findMember step.text members).getD .null) = .ok child ∧
      result = .object (putMember step.text child members) := by
  unfold updateMember at h
  split at h
  · rename_i child hchild
    exact ⟨child, hchild, (Except.ok.inj h).symm⟩
  · cases h

lemma updateItem_ok {position : Nat} {change : Json → Except Conflict Json} {items : List Json}
    {result : Json} (h : updateItem position change items = .ok result) :
    ∃ child written, change (items[position]?.getD .null) = .ok child ∧ result = .list written ∧
      written[position]? = some child ∧
      ∀ other, other ≠ position → written[other]? = items[other]? := by
  unfold updateItem at h
  split at h
  · rename_i item hitem
    have hlt : position < items.length := (List.getElem?_eq_some_iff.mp hitem).1
    split at h
    · rename_i child hchild
      refine ⟨child, items.set position child, by simpa [hitem] using hchild,
        (Except.ok.inj h).symm, List.getElem?_set_self hlt, fun other hother => ?_⟩
      exact List.getElem?_set_ne (Ne.symm hother)
    · cases h
  · rename_i hnone
    split at h
    · rename_i hend
      split at h
      · rename_i child hchild
        refine ⟨child, items ++ [child], by simpa [hnone] using hchild,
          (Except.ok.inj h).symm, by simp [hend], fun other hother => ?_⟩
        rcases Nat.lt_or_gt_of_ne (hend ▸ hother) with hlt | hgt
        · exact List.getElem?_append_left hlt
        · rw [List.getElem?_eq_none (by simp; omega), List.getElem?_eq_none (by omega)]
      · cases h
    · cases h

/-- One step of a successful write: it goes on in the child of the step, puts the new child in its
place and leaves the children of steps with other texts alone. -/
theorem write_cons {value : Json} {step : Step} {rest : List Step} {current result : Json}
    (h : write value (step :: rest) current = .ok result) :
    ∃ child, write value rest ((current.child? step).getD .null) = .ok child ∧
      result.child? step = some child ∧
      ∀ other, step.Differs other → result.child? other = current.child? other := by
  rw [← write_opened] at h
  rw [← child?_opened step step current]
  simp only [← child?_opened step _ current]
  have hne := opened_ne_null step current
  generalize current.opened step = container at h hne
  cases container with
  | null => exact absurd rfl hne
  | object members =>
    obtain ⟨child, hchild, rfl⟩ := updateMember_ok (by simpa only [write] using h)
    refine ⟨child, hchild, ?_, fun other hother => ?_⟩
    · simp [child?, findMember_putMember]
    · simp [child?, findMember_putMember, Ne.symm hother]
  | list items =>
    cases step with
    | key name => cases h
    | index position =>
      obtain ⟨child, written, hchild, rfl, hself, hothers⟩ :=
        updateItem_ok (by simpa only [write] using h)
      refine ⟨child, hchild, hself, fun other hother => ?_⟩
      cases other with
      | key name => rfl
      | index other => exact hothers other fun he => hother (by rw [he])
  | bool b => cases h
  | number n => cases h
  | string s => cases h

theorem find?_write_append {value : Json} {p q : List Step} {document result : Json}
    (h : write value (p ++ q) document = .ok result) :
    ∃ part, write value q ((document.find? p).getD .null) = .ok part ∧
      result.find? p = some part := by
  induction p generalizing document result with
  | nil => exact ⟨result, h, rfl⟩
  | cons step rest ih =>
    obtain ⟨child, hchild, hstep, -⟩ := write_cons h
    obtain ⟨part, hpart, hfind⟩ := ih hchild
    refine ⟨part, ?_, by rw [find?_cons, hstep]; exact hfind⟩
    rw [find?_cons, ← find?_getD_null]
    exact hpart

theorem find?_write {value : Json} {path : List Step} {document result : Json}
    (h : write value path document = .ok result) : result.find? path = some value := by
  obtain ⟨part, hpart, hfind⟩ := find?_write_append (q := []) (by rwa [List.append_nil])
  rw [hfind]
  simp only [write, replace] at hpart
  split at hpart
  · rw [Except.ok.inj hpart]
  · cases hpart

/-- A write leaves what is found on a forking path as it was, be it a value or nothing. -/
theorem find?_write_of_forks {value : Json} {path other : List Step} {document result : Json}
    (h : write value path document = .ok result) (hf : Forks path other) :
    result.find? other = document.find? other := by
  induction path generalizing other document result with
  | nil => exact absurd hf ForksBy.not_nil_left
  | cons step rest ih =>
    obtain ⟨child, hchild, hstep, hothers⟩ := write_cons h
    cases other with
    | nil => exact absurd hf ForksBy.not_nil_right
    | cons step' rest' =>
      rcases ForksBy.cons_cons_iff.mp hf with hd | ⟨rfl, hrest⟩
      · rw [find?_cons, find?_cons, hothers step' hd]
      · have hbelow := ih hchild hrest
        rw [find?_cons, find?_cons, hstep, Option.bind_some, hbelow]
        cases document.child? step with
        | some value => rfl
        | none => exact find?_null hrest.ne_nil_right

section Empty

variable {value written : Json} {step : Step} {rest : List Step}

lemma write_null_cons (h : write value (step :: rest) .null = .ok written) :
    ∃ child, write value rest .null = .ok child ∧
      (step = .index 0 ∧ written = .list [child] ∨
        step ≠ .index 0 ∧ written = .object [(step.text, child)]) := by
  by_cases hzero : step = .index 0
  · subst hzero
    have hlist : updateItem 0 (write value rest) [] = .ok written := h
    unfold updateItem at hlist
    simp only [List.getElem?_nil, List.length_nil, if_true] at hlist
    split at hlist
    · rename_i child hchild
      exact ⟨child, hchild, .inl ⟨rfl, (Except.ok.inj hlist).symm⟩⟩
    · cases hlist
  · have hobject : write value (step :: rest) .null =
        updateMember step (write value rest) [] := by
      cases step with
      | key name => rfl
      | index position =>
        cases position with
        | zero => exact absurd rfl hzero
        | succ position => rfl
    rw [hobject] at h
    obtain ⟨child, hchild, rfl⟩ := updateMember_ok h
    exact ⟨child, hchild, .inr ⟨hzero, rfl⟩⟩

lemma write_empty_cons (h : write value (step :: rest) (.object []) = .ok written) :
    ∃ child, write value rest .null = .ok child ∧ written = .object [(step.text, child)] :=
  updateMember_ok (by simpa only [write] using h)

lemma write_null_of_empty (h : write value (step :: rest) (.object []) = .ok written) :
    write value (.key step.text :: rest) .null = .ok written := by
  obtain ⟨child, hchild, rfl⟩ := write_empty_cons h
  simp only [write, updateMember, findMember, Option.getD_none, hchild]
  rfl

end Empty

end Json

end RecordMapping

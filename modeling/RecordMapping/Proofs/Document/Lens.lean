import RecordMapping.Proofs.Document.InPlace

/-!
# What a write changes

A write obeys the laws of a lens with a frame: the value is found where it was written, paths whose
texts fork find what they found before, and writing what is already there changes nothing. The
containers on the way keep what they had, members in their order and items in their places, and get
at most one child more, at their end.
-/

namespace RecordMapping

lemma names_putMember (name : String) (value : Json) (members : List Member) :
    (putMember name value members).map Prod.fst =
      if name ∈ members.map Prod.fst then members.map Prod.fst
      else members.map Prod.fst ++ [name] := by
  induction members with
  | nil => simp [putMember]
  | cons member rest ih =>
    obtain ⟨key, old⟩ := member
    by_cases hkey : key = name
    · simp [putMember, hkey]
    · have hne : name ≠ key := Ne.symm hkey
      simp only [putMember, if_neg hkey, List.map_cons, ih, List.mem_cons, hne, false_or]
      split <;> rfl

namespace Step

lemma eq_or_key_of_text_eq {s t : Step} (h : s.text = t.text) :
    s = t ∨ (∃ name, s = .key name) ∨ ∃ name, t = .key name := by
  cases s with
  | key name => exact Or.inr (Or.inl ⟨name, rfl⟩)
  | index i =>
    cases t with
    | key name => exact Or.inr (Or.inr ⟨name, rfl⟩)
    | index j => exact Or.inl (by rw [text_index_injective h])

end Step

namespace Json

lemma write_object {value : Json} {step : Step} {rest : List Step} {members : List Member}
    {result : Json} (h : write value (step :: rest) (.object members) = .ok result) :
    ∃ child, result = .object (putMember step.text child members) := by
  obtain ⟨child, -, hresult⟩ := updateMember_ok (by simpa only [write] using h)
  exact ⟨child, hresult⟩

lemma write_list {value : Json} {step : Step} {rest : List Step} {items : List Json}
    {result : Json} (h : write value (step :: rest) (.list items) = .ok result) :
    ∃ position child, step = .index position ∧
      (position < items.length ∧ result = .list (items.set position child) ∨
        position = items.length ∧ result = .list (items ++ [child])) := by
  cases step with
  | key name => cases h
  | index position =>
    simp only [write, updateItem] at h
    cases hitem : items[position]? with
    | some item =>
      have hlt : position < items.length := (List.getElem?_eq_some_iff.mp hitem).1
      simp only [hitem] at h
      split at h
      · rename_i child hchild
        exact ⟨position, child, rfl, Or.inl ⟨hlt, (Except.ok.inj h).symm⟩⟩
      · cases h
    | none =>
      simp only [hitem] at h
      split at h
      · rename_i hend
        split at h
        · rename_i child hchild
          exact ⟨position, child, rfl, Or.inr ⟨hend, (Except.ok.inj h).symm⟩⟩
        · cases h
      · cases h

theorem write_of_find? {value : Json} {path : List Step} {document : Json}
    (h : document.find? path = some value) : write value path document = .ok document := by
  induction path generalizing document with
  | nil =>
    obtain rfl := Option.some.inj h
    simp [write, replace]
  | cons step rest ih =>
    obtain ⟨child, hchild, hrest⟩ := Option.bind_eq_some_iff.mp h
    rw [write_cons_eq, withRoom_of_child? hchild, hchild]
    simp only [ih hrest, putChild_of_child? hchild]

/-- A step of the same text as a written one finds the same child, or nothing before and after. -/
lemma child?_write_of_text_eq {value : Json} {step other : Step} {rest : List Step}
    {document result : Json} (h : write value (step :: rest) document = .ok result)
    (ht : step.text = other.text) :
    document.child? other = document.child? step ∧ result.child? other = result.child? step ∨
      document.child? other = none ∧ result.child? other = none := by
  rw [← write_opened] at h
  simp only [← child?_opened step _ document]
  have hne := opened_ne_null step document
  generalize document.opened step = container at h hne
  cases container with
  | null => exact absurd rfl hne
  | object members =>
    obtain ⟨child, rfl⟩ := write_object h
    exact Or.inl ⟨by rw [child?, child?, ht], by rw [child?, child?, ht]⟩
  | list items =>
    obtain ⟨position, child, rfl, hresult⟩ := write_list h
    rcases Step.eq_or_key_of_text_eq ht with rfl | ⟨name, hkey⟩ | ⟨name, rfl⟩
    · exact Or.inl ⟨rfl, rfl⟩
    · cases hkey
    · refine Or.inr ⟨rfl, ?_⟩
      rcases hresult with ⟨-, rfl⟩ | ⟨-, rfl⟩ <;> rfl
  | _ => cases h

/-- A write leaves what is found on a path whose text forks from its own, whether the steps before
the fork are the same or only of one text. -/
theorem find?_write_of_texts_fork {value : Json} {path other : List Step} {document result : Json}
    (h : write value path document = .ok result)
    (hf : ForksBy (· ≠ ·) (path.map Step.text) (other.map Step.text)) :
    result.find? other = document.find? other := by
  induction path generalizing other document result with
  | nil => exact absurd hf ForksBy.not_nil_left
  | cons step rest ih =>
    cases other with
    | nil => exact absurd hf ForksBy.not_nil_right
    | cons step' rest' =>
      obtain ⟨child, hchild, hstep, hothers⟩ := write_cons h
      rcases ForksBy.cons_cons_iff.mp hf with hd | ⟨ht, hrest⟩
      · rw [find?_cons, find?_cons, hothers step' hd]
      · have hbelow := ih hchild hrest
        have hne : rest' ≠ [] := by
          rintro rfl
          exact hrest.ne_nil_right rfl
        rw [find?_cons, find?_cons]
        rcases child?_write_of_text_eq h ht with ⟨hbefore, hafter⟩ | ⟨hbefore, hafter⟩
        · rw [hbefore, hafter, hstep, Option.bind_some, hbelow]
          cases document.child? step with
          | some value => rfl
          | none => exact find?_null hne
        · rw [hbefore, hafter]

section Containers

variable {value : Json} {before rest : List Step} {step : Step} {document result : Json}

lemma names_write (h : write value (before ++ step :: rest) document = .ok result)
    {members : List Member} (hfound : document.find? before = some (.object members)) :
    ∃ written, result.find? before = some (.object written) ∧
      written.map Prod.fst =
        if step.text ∈ members.map Prod.fst then members.map Prod.fst
        else members.map Prod.fst ++ [step.text] := by
  obtain ⟨part, hpart, hresult⟩ := find?_write_append h
  rw [hfound, Option.getD_some] at hpart
  obtain ⟨child, rfl⟩ := write_object hpart
  exact ⟨_, hresult, names_putMember step.text child members⟩

/-- A list on the way keeps its items in place but for the one that is written, which may be new at
its end. -/
lemma items_write (h : write value (before ++ step :: rest) document = .ok result)
    {items : List Json} (hfound : document.find? before = some (.list items)) :
    ∃ position child, step = .index position ∧
      (position < items.length ∧ result.find? before = some (.list (items.set position child)) ∨
        position = items.length ∧ result.find? before = some (.list (items ++ [child]))) := by
  obtain ⟨part, hpart, hresult⟩ := find?_write_append h
  rw [hfound, Option.getD_some] at hpart
  obtain ⟨position, child, hstep, hwritten⟩ := write_list hpart
  refine ⟨position, child, hstep, ?_⟩
  rcases hwritten with ⟨hlt, rfl⟩ | ⟨hend, rfl⟩
  · exact Or.inl ⟨hlt, hresult⟩
  · exact Or.inr ⟨hend, hresult⟩

end Containers

/-- What was written is found, forking paths find what they found before, the containers on the way
keep what they had in its order, and writing again changes nothing. -/
theorem write_lens_laws {value : Json} {path : List Step} {document result : Json}
    (h : write value path document = .ok result) :
    result.find? path = some value ∧
    (∀ other, ForksBy (· ≠ ·) (path.map Step.text) (other.map Step.text) →
      result.find? other = document.find? other) ∧
    (∀ before step rest members, path = before ++ step :: rest →
      document.find? before = some (.object members) →
      ∃ written, result.find? before = some (.object written) ∧
        written.map Prod.fst =
          if step.text ∈ members.map Prod.fst then members.map Prod.fst
          else members.map Prod.fst ++ [step.text]) ∧
    (∀ before step rest items, path = before ++ step :: rest →
      document.find? before = some (.list items) →
      ∃ position child, step = .index position ∧
        (position < items.length ∧ result.find? before = some (.list (items.set position child)) ∨
          position = items.length ∧ result.find? before = some (.list (items ++ [child])))) ∧
    write value path result = .ok result := by
  have hfind := find?_write h
  refine ⟨hfind, fun other hf => find?_write_of_texts_fork h hf, ?_, ?_, write_of_find? hfind⟩
  · rintro before step rest members rfl hfound
    exact names_write h hfound
  · rintro before step rest items rfl hfound
    exact items_write h hfound

section Codes

/-- A document whose codes are members named by numbers. -/
def codes : Json :=
  .object [("codes", .object [("007", .null),
    ("7", .object [("name", .string "x"), ("tags", .list [.string "a"])])])]

/-- The place of the second tag of the code at position seven. -/
def secondTag : List Step := [.key "codes", .index 7, .key "tags", .index 1]

/-- A second tag is added to the code named by its number, which keeps its name. -/
theorem write_lens_laws_codes :
    ∃ result, write (.string "b") secondTag codes = .ok result ∧
      result.find? secondTag = some (.string "b") ∧
      result.find? [.key "codes", .key "7", .key "name"] = some (.string "x") ∧
      (∃ written, result.find? [.key "codes"] = some (.object written) ∧
        written.map Prod.fst = ["007", "7"]) ∧
      (∃ tag, result.find? [.key "codes", .index 7, .key "tags"] =
        some (.list [.string "a", tag])) ∧
      write (.string "b") secondTag result = .ok result := by
  have hwrite : write (.string "b") secondTag codes =
      .ok (.object [("codes", .object [("007", .null),
        ("7", .object [("name", .string "x"),
          ("tags", .list [.string "a", .string "b"])])])]) := rfl
  obtain ⟨hfind, hframe, hmembers, hitems, hagain⟩ := write_lens_laws hwrite
  have hfork : ForksBy (· ≠ ·) (secondTag.map Step.text)
      ([.key "codes", .key "7", .key "name"].map Step.text) :=
    ⟨["codes", "7"], "tags", "name", ["1"], [], rfl, rfl, by decide⟩
  refine ⟨_, hwrite, hfind, hframe _ hfork, hmembers [.key "codes"] (.index 7) _ _ rfl rfl, ?_,
    hagain⟩
  obtain ⟨position, tag, hstep, ⟨hlt, -⟩ | ⟨-, hlist⟩⟩ :=
    hitems [.key "codes", .index 7, .key "tags"] (.index 1) [] _ rfl rfl
  · obtain rfl := Step.index.inj hstep
    exact absurd hlt (by decide)
  · exact ⟨tag, hlist⟩

end Codes

end Json

end RecordMapping

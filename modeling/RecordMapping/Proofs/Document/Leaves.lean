import RecordMapping.Proofs.Document.Lens
import RecordMapping.Proofs.Document.Writes

namespace RecordMapping

namespace Json

/-- Whether a value is a scalar, null or an empty container. -/
def isLeaf : Json → Bool
  | .list items => items.isEmpty
  | .object members => members.isEmpty
  | _ => true

theorem isLeaf_iff {value : Json} : value.isLeaf ↔ ∀ step, value.child? step = none := by
  cases value with
  | list items =>
    rw [isLeaf, List.isEmpty_iff]
    constructor
    · rintro rfl step
      cases step <;> rfl
    · intro h
      have hfirst : items[0]? = none := h (.index 0)
      cases items with
      | nil => rfl
      | cons item rest => cases hfirst
  | object members =>
    rw [isLeaf, List.isEmpty_iff]
    constructor
    · rintro rfl step
      rfl
    · intro h
      cases members with
      | nil => rfl
      | cons member rest =>
        have hfirst := h (.key member.1)
        simp [child?, findMember, Step.text] at hfirst
  | _ => simp [isLeaf, child?]

/-- A leaf of a written document stands at the place that it has in the written value, below the
written path, or at a place below the root where it was before. -/
theorem leaf_of_write {value leaf : Json} (hleaf : leaf.isLeaf) {path place : List Step}
    {document result : Json} (h : write value path document = .ok result)
    (hfound : result.find? place = some leaf) :
    (∃ below, place.map Step.text = (path ++ below).map Step.text ∧
      value.find? below = some leaf) ∨
    place ≠ [] ∧ document.find? place = some leaf := by
  induction path generalizing place document result with
  | nil =>
    have hvalue := find?_write h
    obtain rfl := Option.some.inj hvalue
    exact .inl ⟨place, rfl, hfound⟩
  | cons step rest ih =>
    obtain ⟨child, hchild, hstep, hothers⟩ := write_cons h
    cases place with
    | nil =>
      obtain rfl := Option.some.inj hfound
      rw [isLeaf_iff.mp hleaf step] at hstep
      cases hstep
    | cons next more =>
      rw [find?_cons] at hfound
      by_cases htext : step.text = next.text
      · obtain ⟨hbefore, hafter⟩ | ⟨-, hafter⟩ := child?_write_of_text_eq h htext
        · rw [hafter, hstep, Option.bind_some] at hfound
          obtain ⟨below, htexts, hbelow⟩ | ⟨hmore, hthere⟩ := ih hchild hfound
          · exact .inl ⟨below, by simp [htext, htexts], hbelow⟩
          · refine .inr ⟨List.cons_ne_nil next more, ?_⟩
            rw [find?_cons, hbefore]
            cases hold : document.child? step with
            | some old => rwa [hold] at hthere
            | none =>
              rw [hold, Option.getD_none, find?_null hmore] at hthere
              cases hthere
        · rw [hafter] at hfound
          cases hfound
      · refine .inr ⟨List.cons_ne_nil next more, ?_⟩
        rwa [find?_cons, ← hothers next htext]

theorem leaf_of_writeAll {leaf : Json} (hleaf : leaf.isLeaf) {placements : List Placement}
    {place : List Step} {document result : Json}
    (h : writeAll placements document = .ok result) (hfound : result.find? place = some leaf) :
    (∃ placement ∈ placements, ∃ below,
      place.map Step.text = (placement.1 ++ below).map Step.text ∧
      placement.2.find? below = some leaf) ∨
    document.find? place = some leaf := by
  induction placements generalizing document with
  | nil =>
    rw [writeAll_nil] at h
    exact .inr (Except.ok.inj h ▸ hfound)
  | cons placement rest ih =>
    obtain ⟨between, hfirst, hrest⟩ := writeAll_cons_ok.mp h
    obtain ⟨later, hmem, horigin⟩ | hbetween := ih hrest
    · exact .inl ⟨later, List.mem_cons_of_mem _ hmem, horigin⟩
    · obtain horigin | ⟨-, hthere⟩ := leaf_of_write hleaf hfirst hbetween
      · exact .inl ⟨placement, List.mem_cons_self, horigin⟩
      · exact .inr hthere

lemma object_of_writeAll {placements : List Placement} {members : List Member} {result : Json}
    (hpaths : ∀ placement ∈ placements, placement.1 ≠ [])
    (h : writeAll placements (.object members) = .ok result) :
    ∃ written, result = .object written := by
  induction placements generalizing members with
  | nil => exact ⟨members, (Except.ok.inj h).symm⟩
  | cons placement rest ih =>
    obtain ⟨path, value⟩ := placement
    obtain ⟨hpath, hrest⟩ := List.forall_mem_cons.mp hpaths
    obtain ⟨between, hfirst, hlater⟩ := writeAll_cons_ok.mp h
    obtain ⟨step, more, rfl⟩ := List.exists_cons_of_ne_nil hpath
    obtain ⟨child, rfl⟩ := write_object hfirst
    exact ih hrest hlater

end Json

end RecordMapping

import RecordMapping.Proofs.Document.InPlace
import RecordMapping.Proofs.Text.Lines

namespace RecordMapping

lemma pathText_eq_intercalate (path : List Step) :
    pathText path = String.intercalate "/" (path.map Step.text) := by
  apply String.toList_injective
  rw [String.toList_intercalate, pathText, String.toList_ofList, joinPieces_eq_intercalate,
    List.map_map]
  rfl

namespace Json

/-- What stops a write of a value on its walk over existing values: a list where a name or a
position past its end is next, a scalar where a step is left, or a value at the end that would be
swapped between container and scalar. -/
inductive Blocks (value document : Json) : List Step → Conflict → Prop
  | namedItem (before : List Step) {rest : List Step} {name : String} {items : List Json} :
    document.find? before = some (.list items) →
    Blocks value document (before ++ .key name :: rest) ⟨before ++ [.key name], .namedItem name⟩
  | pastEnd (before : List Step) {rest : List Step} {position : Nat} {items : List Json} :
    document.find? before = some (.list items) → items.length < position →
    Blocks value document (before ++ .index position :: rest)
      ⟨before ++ [.index position], .pastEnd position items.length⟩
  | scalar (before : List Step) {rest : List Step} {step : Step} {found : Json} :
    document.find? before = some found → found ≠ .null → found.isContainer = false →
    Blocks value document (before ++ step :: rest) ⟨before ++ [step], .scalar found.kind⟩
  | replacement {path : List Step} {found : Json} :
    document.find? path = some found → found ≠ .null → found.isContainer ≠ value.isContainer →
    Blocks value document path ⟨path, .replacement found.kind value.kind⟩

namespace Blocks

variable {value document child : Json} {path : List Step} {conflict : Conflict}

lemma below {step : Step} (hstep : document.child? step = some child)
    (h : Blocks value child path conflict) :
    Blocks value document (step :: path) (conflict.below step) := by
  have hfind : ∀ rest, document.find? (step :: rest) = child.find? rest := fun rest => by
    rw [find?_cons, hstep, Option.bind_some]
  cases h with
  | @namedItem before rest name items hitems =>
    exact namedItem (step :: before) ((hfind before).trans hitems)
  | @pastEnd before rest position items hitems hlt =>
    exact pastEnd (step :: before) ((hfind before).trans hitems) hlt
  | @scalar before rest next found hfound hnull hscalar =>
    exact scalar (step :: before) ((hfind before).trans hfound) hnull hscalar
  | @replacement _ found hfound hnull hkinds =>
    exact replacement ((hfind path).trans hfound) hnull hkinds

lemma path_prefix (h : Blocks value document path conflict) : conflict.path <+: path := by
  cases h with
  | @namedItem before rest name items hitems => exact ⟨rest, by simp⟩
  | @pastEnd before rest position items hitems hlt => exact ⟨rest, by simp⟩
  | @scalar before rest next found hfound hnull hscalar => exact ⟨rest, by simp⟩
  | @replacement _ found hfound hnull hkinds => exact List.prefix_refl path

end Blocks

lemma blocks_of_no_child {value : Json} {step : Step} {rest : List Step} {document : Json}
    (h : (document.withRoom step).child? step = none) :
    Blocks value document (step :: rest) ⟨[step], (document.withRoom step).obstacle step⟩ := by
  have hself : document.withRoom step = document := by
    rcases withRoom_eq_self_or step document with hself | hmade
    · exact hself
    · rw [h] at hmade
      cases hmade
  cases document with
  | null =>
    exact absurd hself (by
      by_cases hzero : step = .index 0 <;> simp [withRoom, opened, hzero, findMember])
  | object members =>
    rw [withRoom_object] at h
    simp [child?, findMember_putMember] at h
  | list items =>
    rw [hself] at h ⊢
    cases step with
    | key name => exact Blocks.namedItem [] rfl
    | index position =>
      have hend : position ≠ items.length := by
        rintro rfl
        simp [withRoom, opened] at hself
      have hle : items.length ≤ position := List.getElem?_eq_none_iff.mp h
      exact Blocks.pastEnd [] rfl (by omega)
  | bool b => exact Blocks.scalar [] rfl (by simp [hself]) rfl
  | number n => exact Blocks.scalar [] rfl (by simp [hself]) rfl
  | string s => exact Blocks.scalar [] rfl (by simp [hself]) rfl

lemma blocks_of_write_error {value : Json} {path : List Step} {document : Json}
    {conflict : Conflict} (h : write value path document = .error conflict) :
    Blocks value document path conflict := by
  induction path generalizing document conflict with
  | nil =>
    simp only [write, replace] at h
    split at h
    · cases h
    · rename_i hstop
      obtain rfl := Except.error.inj h
      simp only [Bool.or_eq_true, beq_iff_eq, not_or] at hstop
      refine Blocks.replacement rfl ?_ hstop.2
      rintro rfl
      exact hstop.1 rfl
  | cons step rest ih =>
    rw [write_cons_eq] at h
    split at h
    · rename_i child hchild
      split at h
      · cases h
      · rename_i inner hinner
        obtain rfl := Except.error.inj h
        rw [withRoom_eq_self_of_error hchild hinner] at hchild
        exact (ih hinner).below hchild
    · rename_i hnone
      obtain rfl := Except.error.inj h
      exact blocks_of_no_child hnone

lemma write_append_error {value : Json} {before rest : List Step} {document found : Json}
    {conflict : Conflict} (hfound : document.find? before = some found)
    (h : write value rest found = .error conflict) :
    write value (before ++ rest) document =
      .error { conflict with path := before ++ conflict.path } := by
  induction before generalizing document with
  | nil =>
    obtain rfl := Option.some.inj hfound
    exact h
  | cons step before ih =>
    obtain ⟨child, hchild, hbelow⟩ := Option.bind_eq_some_iff.mp hfound
    rw [List.cons_append, write_cons_eq, withRoom_of_child? hchild, hchild]
    simp only [ih hbelow]
    rfl

/-- A write fails exactly where it is blocked, and reports where and by what. -/
theorem write_eq_error_iff {value : Json} {path : List Step} {document : Json}
    {conflict : Conflict} :
    write value path document = .error conflict ↔ Blocks value document path conflict := by
  refine ⟨blocks_of_write_error, fun h => ?_⟩
  cases h with
  | @namedItem before rest name items hitems =>
    have hstop : write value (.key name :: rest) (.list items) =
        .error ⟨[.key name], .namedItem name⟩ := rfl
    exact write_append_error hitems hstop
  | @pastEnd before rest position items hitems hlt =>
    have hstop : write value (.index position :: rest) (.list items) =
        .error ⟨[.index position], .pastEnd position items.length⟩ := by
      have hnone : items[position]? = none := List.getElem?_eq_none (Nat.le_of_lt hlt)
      simp only [write, updateItem, hnone, if_neg (Nat.ne_of_gt hlt)]
    exact write_append_error hitems hstop
  | @scalar before rest step found hfound hnull hscalar =>
    have hstop : write value (step :: rest) found = .error ⟨[step], .scalar found.kind⟩ := by
      cases found with
      | null => exact absurd rfl hnull
      | object members => cases hscalar
      | list items => cases hscalar
      | _ => rfl
    exact write_append_error hfound hstop
  | @replacement _ found hfound hnull hkinds =>
    have hstop : write value [] found = .error ⟨[], .replacement found.kind value.kind⟩ := by
      have hnot : found.isNull = false := by
        cases found with
        | null => exact absurd rfl hnull
        | _ => rfl
      simp [write, replace, hnot, hkinds]
    simpa using write_append_error hfound hstop

/-- A write in place is stopped exactly where it is blocked, at a part of its path that is told with
slashes between the steps, and then leaves the document as it was. In every other case it succeeds
as a write. -/
theorem writeInPlace_stopped_iff (value : Json) (path : List Step) (document : Json) :
    (∀ after conflict, writeInPlace value path document = (after, some conflict) ↔
      Blocks value document path conflict ∧ after = document) ∧
    (∀ conflict, Blocks value document path conflict → conflict.path <+: path ∧
      pathText conflict.path =
        String.intercalate "/" ((path.take conflict.path.length).map Step.text)) ∧
    ((∀ conflict, ¬Blocks value document path conflict) →
      ∃ after, writeInPlace value path document = (after, none) ∧
        write value path document = .ok after) := by
  rw [writeInPlace_eq]
  refine ⟨fun after conflict => ?_, fun conflict hblocks => ?_, fun hfree => ?_⟩
  · rw [← write_eq_error_iff]
    cases write value path document with
    | ok result => simp
    | error stopped =>
      constructor
      · intro h
        obtain ⟨rfl, hconflict⟩ := Prod.mk.inj h
        exact ⟨by rw [Option.some.inj hconflict], rfl⟩
      · rintro ⟨hstopped, rfl⟩
        rw [Except.error.inj hstopped]
  · have hpart := hblocks.path_prefix
    refine ⟨hpart, ?_⟩
    rw [← List.prefix_iff_eq_take.mp hpart, pathText_eq_intercalate]
  · cases hwrite : write value path document with
    | ok result => exact ⟨result, rfl, rfl⟩
    | error conflict => exact absurd (write_eq_error_iff.mp hwrite) (hfree conflict)

section References

/-- A document with a list and a title that is not known. -/
def references : Json :=
  .object [("refs", .list [.object [("id", .string "a")]]), ("title", .null)]

/-- Nothing can be written past the end of the list, but next to its last item and below the
title. -/
theorem writeInPlace_stopped_references :
    writeInPlace (.string "d") [.key "refs", .index 3, .key "id"] references =
      (references, some ⟨[.key "refs", .index 3], .pastEnd 3 1⟩) ∧
    pathText [.key "refs", .index 3] = "refs/3" ∧
    (∃ after, writeInPlace (.string "b") [.key "refs", .index 1, .key "id"] references =
      (after, none)) ∧
    ∃ after, writeInPlace (.string "t") [.key "title", .index 0] references = (after, none) := by
  have hlist : references.find? [.key "refs"] = some (.list [.object [("id", .string "a")]]) := rfl
  have hblocks : Blocks (.string "d") references ([.key "refs"] ++ .index 3 :: [.key "id"])
      ⟨[.key "refs"] ++ [.index 3], .pastEnd 3 1⟩ := Blocks.pastEnd _ hlist (by decide)
  have hstopped := writeInPlace_stopped_iff (.string "d") [.key "refs", .index 3, .key "id"]
    references
  have hfree : ∀ value path after, write value path references = .ok after →
      ∀ conflict, ¬Blocks value references path conflict := by
    intro value path after hok conflict hconflict
    rw [write_eq_error_iff.mpr hconflict] at hok
    cases hok
  refine ⟨(hstopped.1 _ _).mpr ⟨hblocks, rfl⟩, ((hstopped.2.1 _ hblocks).2).trans rfl, ?_, ?_⟩
  · obtain ⟨after, hafter, -⟩ :=
      (writeInPlace_stopped_iff (.string "b") [.key "refs", .index 1, .key "id"] references).2.2
        (hfree _ _ _ rfl)
    exact ⟨after, hafter⟩
  · obtain ⟨after, hafter, -⟩ :=
      (writeInPlace_stopped_iff (.string "t") [.key "title", .index 0] references).2.2
        (hfree _ _ _ rfl)
    exact ⟨after, hafter⟩

end References

end Json

end RecordMapping

import Mathlib.Data.List.Pairwise
import RecordMapping.Proofs.Document.Conflicts
import RecordMapping.Proofs.Document.Writes

/-!
# Writes that take turns

From an empty object on, a sequence of writes meets no conflict when its paths part at two names or
two positions of one container and every list is entered position after position. Whatever stands at
a place on the way was then put there by an earlier write, which stepped on from it in the same way.
-/

namespace RecordMapping

/-- A path comes in turn after earlier writes: where it takes a position, that is zero, or the
position before it was taken there, or no other position was. -/
def InTurn (earlier : List Placement) (path : List Step) : Prop :=
  ∀ before position rest, path = before ++ .index position :: rest →
    position = 0 ∨
    (∃ placement ∈ earlier, ∃ below, placement.1 = before ++ .index (position - 1) :: below) ∨
    ∀ placement ∈ earlier, ∀ other below, placement.1 = before ++ .index other :: below →
      other = position

namespace Json

section Earlier

variable {earlier : List Placement} {document : Json}

lemma find?_of_mem (hdoc : writeAll earlier (.object []) = .ok document)
    (hpart : earlier.Pairwise fun a b => ForksBy Step.Rivals a.1 b.1) {placement : Placement}
    (hmem : placement ∈ earlier) : document.find? placement.1 = some placement.2 := by
  have hforks : earlier.Pairwise fun a b => Forks a.1 b.1 :=
    hpart.imp fun h => h.mono fun _ _ => Step.Rivals.differs
  have hsymm : Std.Symm fun a b : Placement => Forks a.1 b.1 := ⟨fun _ _ => Forks.symm⟩
  refine find?_writeAll hdoc hmem fun other hother => ?_
  by_cases hsame : other = placement
  · exact Or.inr hsame
  · exact Or.inl (hforks.forall hother hmem hsame)

lemma exists_child?_of_mem (hdoc : writeAll earlier (.object []) = .ok document)
    (hpart : earlier.Pairwise fun a b => ForksBy Step.Rivals a.1 b.1) {placement : Placement}
    (hmem : placement ∈ earlier) {before below : List Step} {step : Step}
    (hpath : placement.1 = before ++ step :: below) {found : Json}
    (hfound : document.find? before = some found) : ∃ child, found.child? step = some child := by
  have hplaced := find?_of_mem hdoc hpart hmem
  rw [hpath, find?_append, hfound, Option.bind_some, find?_cons] at hplaced
  obtain ⟨child, hchild, -⟩ := Option.bind_eq_some_iff.mp hplaced
  exact ⟨child, hchild⟩

/-- What is found on the way of a parting path is the empty document, or an earlier path went on
from there by the same step or by a rival of it. -/
lemma found_on_way (hdoc : writeAll earlier (.object []) = .ok document)
    (hpart : earlier.Pairwise fun a b => ForksBy Step.Rivals a.1 b.1) {before rest : List Step}
    {step : Step} (hrivals : ∀ placement ∈ earlier,
      ForksBy Step.Rivals placement.1 (before ++ step :: rest)) {found : Json}
    (hfound : document.find? before = some found) :
    found = .object [] ∨ ∃ placement ∈ earlier, ∃ other below child,
      placement.1 = before ++ other :: below ∧ (other = step ∨ other.Rivals step) ∧
        found.child? other = some child := by
  by_cases hpass : ∃ placement ∈ earlier, ¬ForksBy Step.Rivals placement.1 before
  · right
    obtain ⟨placement, hmem, hnot⟩ := hpass
    obtain ⟨below, hpath, hbelow⟩ := (hrivals placement hmem).of_append_right.resolve_left hnot
    cases below with
    | nil => exact absurd hbelow ForksBy.not_nil_left
    | cons other below =>
      obtain ⟨child, hchild⟩ := exists_child?_of_mem hdoc hpart hmem hpath hfound
      have hother : other.Rivals step ∨ other = step :=
        (ForksBy.cons_cons_iff.mp hbelow).imp_right And.left
      exact ⟨placement, hmem, other, below, child, hpath, hother.symm, hchild⟩
  · left
    have havoid : ∀ placement ∈ earlier, Forks placement.1 before := by
      intro placement hmem
      have hforks : ForksBy Step.Rivals placement.1 before := by
        by_contra hnot
        exact hpass ⟨placement, hmem, hnot⟩
      exact hforks.mono fun _ _ => Step.Rivals.differs
    rw [find?_writeAll_of_forks hdoc havoid] at hfound
    cases before with
    | nil => exact (Option.some.inj hfound).symm
    | cons next before => cases hfound

lemma list_on_way (hdoc : writeAll earlier (.object []) = .ok document)
    (hpart : earlier.Pairwise fun a b => ForksBy Step.Rivals a.1 b.1) {before rest : List Step}
    {step : Step} (hrivals : ∀ placement ∈ earlier,
      ForksBy Step.Rivals placement.1 (before ++ step :: rest)) {items : List Json}
    (hfound : document.find? before = some (.list items)) :
    ∃ placement ∈ earlier, ∃ taken below, placement.1 = before ++ .index taken :: below ∧
      taken < items.length ∧ ∃ position, step = .index position := by
  rcases found_on_way hdoc hpart hrivals hfound with
    hempty | ⟨placement, hmem, other, below, child, hpath, hother, hchild⟩
  · cases hempty
  · cases other with
    | key name => cases hchild
    | index taken =>
      have hlt : taken < items.length := (List.getElem?_eq_some_iff.mp hchild).1
      refine ⟨placement, hmem, taken, below, hpath, hlt, ?_⟩
      rcases hother with rfl | hrival
      · exact ⟨taken, rfl⟩
      · cases hrival with
        | positions hne => exact ⟨_, rfl⟩

/-- A path that parts from all earlier ones and comes in turn can be written. -/
theorem exists_write_of_inTurn (hdoc : writeAll earlier (.object []) = .ok document)
    (hpart : earlier.Pairwise fun a b => ForksBy Step.Rivals a.1 b.1) {path : List Step}
    (hne : path ≠ [])
    (hrivals : ∀ placement ∈ earlier, ForksBy Step.Rivals placement.1 path)
    (hturn : InTurn earlier path) (value : Json) :
    ∃ result, write value path document = .ok result := by
  cases hwrite : write value path document with
  | ok result => exact ⟨result, rfl⟩
  | error conflict =>
    exfalso
    cases write_eq_error_iff.mp hwrite with
    | @namedItem before rest name items hitems =>
      obtain ⟨_, _, _, _, _, _, position, hstep⟩ := list_on_way hdoc hpart hrivals hitems
      cases hstep
    | @pastEnd before rest position items hitems hlt =>
      rcases hturn before position rest rfl with hzero | ⟨placement, hmem, below, hpath⟩ | honly
      · omega
      · obtain ⟨child, hchild⟩ := exists_child?_of_mem hdoc hpart hmem hpath hitems
        have hprevious : position - 1 < items.length := (List.getElem?_eq_some_iff.mp hchild).1
        omega
      · obtain ⟨placement, hmem, taken, below, hpath, htaken, -⟩ :=
          list_on_way hdoc hpart hrivals hitems
        have hsame := honly placement hmem taken below hpath
        omega
    | @scalar before rest step found hfound hnull hscalar =>
      rcases found_on_way hdoc hpart hrivals hfound with
        rfl | ⟨_, _, other, _, child, _, _, hchild⟩
      · cases hscalar
      · cases found with
        | object members => cases hscalar
        | list items => cases hscalar
        | _ => cases hchild
    | @replacement _ found hfound hnull hkinds =>
      have havoid : ∀ placement ∈ earlier, Forks placement.1 path := fun placement hmem =>
        (hrivals placement hmem).mono fun _ _ => Step.Rivals.differs
      rw [find?_writeAll_of_forks hdoc havoid] at hfound
      cases path with
      | nil => exact absurd rfl hne
      | cons step rest => cases hfound

end Earlier

end Json

/-- Writes along parting paths that meet no conflict from an empty object on. -/
structure Unblocked (placements : List Placement) : Prop where
  parting : placements.Pairwise fun a b => ForksBy Step.Rivals a.1 b.1
  succeeds : ∃ document, Json.writeAll placements (.object []) = .ok document

namespace Unblocked

lemma nil : Unblocked [] where
  parting := List.Pairwise.nil
  succeeds := ⟨.object [], rfl⟩

theorem append_singleton {earlier : List Placement} (h : Unblocked earlier) {path : List Step}
    (hne : path ≠ [])
    (hrivals : ∀ placement ∈ earlier, ForksBy Step.Rivals placement.1 path)
    (hturn : InTurn earlier path) (value : Json) : Unblocked (earlier ++ [(path, value)]) where
  parting := List.pairwise_append.mpr
    ⟨h.parting, List.pairwise_singleton _ _, by simpa using hrivals⟩
  succeeds := by
    obtain ⟨document, hdoc⟩ := h.succeeds
    obtain ⟨result, hresult⟩ :=
      Json.exists_write_of_inTurn hdoc h.parting hne hrivals hturn value
    refine ⟨result, Json.writeAll_append_ok.mpr ⟨document, hdoc, ?_⟩⟩
    exact Json.writeAll_cons_ok.mpr ⟨result, hresult, rfl⟩

end Unblocked

end RecordMapping

import RecordMapping.Proofs.Store.Sorting
import RecordMapping.Store.RecordStore

/-!
# Paging through a result

A reader asks for one page after the other and stops at the first empty one. Every request filters
and sorts anew, yet the pages fit together: they are the parts of one result that does not depend on
the page.
-/

namespace RecordMapping

namespace RecordQuery

section

variable (filters : List RecordFilter) (keys : List SortKey) (records : List Json)

/-- All records that a query finds, without a page. -/
def unpaged : List Json := apply ⟨filters, keys, 0, none⟩ records

variable (size : ℕ)

/-- The pages of one size that are read from an offset on, up to the first empty one. -/
inductive PagesFrom : ℕ → List (List Json) → Prop where
  | last {offset : ℕ} : apply ⟨filters, keys, offset, some size⟩ records = [] →
      PagesFrom offset []
  | next {offset : ℕ} {page : List Json} {rest : List (List Json)} :
      apply ⟨filters, keys, offset, some size⟩ records = page → page ≠ [] →
      PagesFrom (offset + size) rest → PagesFrom offset (page :: rest)

end

variable {filters : List RecordFilter} {keys : List SortKey} {records : List Json}

lemma apply_drop (offset : ℕ) : apply ⟨filters, keys, offset, none⟩ records =
    (unpaged filters keys records).drop offset := rfl

lemma apply_take (offset limit : ℕ) : apply ⟨filters, keys, offset, some limit⟩ records =
    ((unpaged filters keys records).drop offset).take limit := rfl

lemma unpaged_perm : (unpaged filters keys records).Perm (records.filter (admits filters)) :=
  List.mergeSort_perm _ _

variable {size : ℕ} {offset : ℕ} {pages : List (List Json)}

lemma drop_eq_nil_of_page (hsize : 0 < size)
    (h : apply ⟨filters, keys, offset, some size⟩ records = []) :
    (unpaged filters keys records).drop offset = [] := by
  rw [apply_take] at h
  refine (List.take_eq_nil_iff.mp h).resolve_left ?_
  omega

namespace PagesFrom

lemma exists_pages (filters : List RecordFilter) (keys : List SortKey) (records : List Json)
    (hsize : 0 < size) (offset : ℕ) :
    ∃ pages, PagesFrom filters keys records size offset pages := by
  -- The number of records that are left goes down with every page that is not empty.
  induction hleft : (unpaged filters keys records).length - offset using Nat.strong_induction_on
    generalizing offset with
  | h left ih =>
    by_cases hpage : apply ⟨filters, keys, offset, some size⟩ records = []
    · exact ⟨[], last hpage⟩
    · have hmore : offset < (unpaged filters keys records).length := by
        by_contra hle
        rw [apply_take, List.drop_eq_nil_of_le (by omega), List.take_nil] at hpage
        exact hpage rfl
      obtain ⟨rest, hrest⟩ := ih _ (by omega) (offset + size) rfl
      exact ⟨_, next rfl hpage hrest⟩

lemma unique {others : List (List Json)} (h : PagesFrom filters keys records size offset pages)
    (hothers : PagesFrom filters keys records size offset others) : pages = others := by
  induction h generalizing others with
  | last hempty =>
    cases hothers with
    | last => rfl
    | next hpage hne => exact absurd (hpage.symm.trans hempty) hne
  | next hpage hne _ ih =>
    cases hothers with
    | last hempty => exact absurd (hpage.symm.trans hempty) hne
    | next hsame _ hrest => rw [← hpage, ← hsame, ih hrest]

lemma flatten (hsize : 0 < size) (h : PagesFrom filters keys records size offset pages) :
    pages.flatten = (unpaged filters keys records).drop offset := by
  induction h with
  | last hempty => rw [drop_eq_nil_of_page hsize hempty, List.flatten_nil]
  | next hpage _ _ ih =>
    rw [List.flatten_cons, ih, ← hpage, apply_take, ← List.drop_drop, List.take_append_drop]

lemma getElem? (hsize : 0 < size) (h : PagesFrom filters keys records size offset pages)
    (number place : ℕ) : pages[number]?.bind (·[place]?) =
      if place < size then (unpaged filters keys records)[offset + number * size + place]?
      else none := by
  induction h generalizing number with
  | @last offset hempty =>
    have hlength := List.drop_eq_nil_iff.mp (drop_eq_nil_of_page hsize hempty)
    rw [List.getElem?_nil, Option.bind_none, List.getElem?_eq_none (by omega), ite_self]
  | @next offset page rest hpage _ _ ih =>
    cases number with
    | zero =>
      rw [List.getElem?_cons_zero, Option.bind_some, ← hpage, apply_take, List.getElem?_take,
        List.getElem?_drop, Nat.zero_mul, Nat.add_zero]
    | succ number =>
      have hplace : offset + size + number * size + place =
          offset + (number + 1) * size + place := by
        rw [Nat.succ_mul]
        omega
      rw [List.getElem?_cons_succ, ih, hplace]

end PagesFrom

/-- A reader of pages comes to an end and gets one sequence of pages, which together are the result
without a page: every admitted record as often as it occurs, the one at a position at its place on
its page. The result for any offset and limit is a part of the same one, and its length is the count
of a store, whatever the sort keys are. -/
theorem paging (hsize : 0 < size) (filters : List RecordFilter) (keys : List SortKey)
    (records : List Json) :
    (∃ pages, PagesFrom filters keys records size 0 pages ∧
      (∀ others, PagesFrom filters keys records size 0 others → others = pages) ∧
      pages.flatten = unpaged filters keys records ∧
      pages.flatten.Perm (records.filter (admits filters)) ∧
      ∀ number place, pages[number]?.bind (·[place]?) =
        if place < size then (unpaged filters keys records)[number * size + place]? else none) ∧
    (∀ offset, apply ⟨filters, keys, offset, none⟩ records =
        (unpaged filters keys records).drop offset ∧
      ∀ limit, apply ⟨filters, keys, offset, some limit⟩ records =
        ((unpaged filters keys records).drop offset).take limit) ∧
    ∀ store : RecordStore,
      store.count filters = (store.query ⟨filters, keys, 0, none⟩).length := by
  refine ⟨?_, fun offset => ⟨apply_drop offset, apply_take offset⟩, fun store => ?_⟩
  · obtain ⟨pages, hpages⟩ := PagesFrom.exists_pages filters keys records hsize 0
    have hwhole : pages.flatten = unpaged filters keys records := hpages.flatten hsize
    refine ⟨pages, hpages, fun others hothers => hothers.unique hpages, hwhole,
      hwhole ▸ unpaged_perm, fun number place => ?_⟩
    rw [hpages.getElem? hsize, Nat.zero_add]
  · have hperm : (unpaged filters keys store.records).Perm
        (store.records.filter (admits filters)) := unpaged_perm
    exact hperm.length_eq.symm

/-- Three books, two of one year, and a map. -/
def shelf : List Json :=
  [.object [("kind", .string "book"), ("year", .ofInt 1984)],
    .object [("kind", .string "map"), ("year", .ofInt 1989)],
    .object [("kind", .string "book"), ("year", .ofInt 1984), ("title", .string "Neuromancer")],
    .object [("kind", .string "book")]]

/-- The books of the shelf fill one page of two and a part of another. -/
theorem paging_shelf :
    ∃ pages, PagesFrom [.equal "kind" (.string "book")] [⟨"year", true⟩] shelf 2 0 pages ∧
      pages.flatten = unpaged [.equal "kind" (.string "book")] [⟨"year", true⟩] shelf ∧
      pages.flatten.length = 3 := by
  obtain ⟨pages, hpages, -, hwhole, hperm, -⟩ :=
    (paging (show 0 < 2 by decide) [.equal "kind" (.string "book")] [⟨"year", true⟩] shelf).1
  exact ⟨pages, hpages, hwhole, hperm.length_eq⟩

end RecordQuery

end RecordMapping

import RecordMapping.Proofs.Plan.Resolve
import RecordMapping.Proofs.Plan.Texts

/-!
# Values by lookup

What a slash-separated expression finds can be said with lookups of paths alone. Main statement: up
to its first wildcard an expression is a path, and behind it there is one value for each item that
is found there, whatever the rest of the expression makes of the item. So expressions that share
what is before the wildcard give values that line up.
-/

namespace RecordMapping

namespace Json

/-- The items of what is found: those of a list, or a value as its only item. -/
def spread : Option Json → List Json
  | none => []
  | some (.list items) => items
  | some value => [value]

/-- What is found as a single value: of a list the first item, and null for nothing. -/
def firstValue : Option Json → Json
  | none => .null
  | some (.list []) => .null
  | some (.list (first :: _)) => first
  | some value => value

lemma head?_spread (found : Option Json) : (spread found).head?.getD .null = firstValue found := by
  unfold spread
  split
  · rfl
  · rename_i items
    cases items <;> rfl
  · rename_i value hlist
    cases value with
    | list items => exact absurd rfl (hlist items)
    | _ => rfl

end Json

open Json

namespace Plan

variable {document : Json}

lemma resolve_nil (found : Option Json) : resolve [] found = spread found := by
  cases found with
  | none => rfl
  | some value => cases value <;> rfl

lemma resolve_wildcard (rest : Plan) (found : Option Json) :
    resolve (.wildcard :: rest) found =
      (spread found).map fun item => (resolve rest (some item)).head?.getD .null := by
  cases found with
  | none => rfl
  | some value => cases value <;> rfl

theorem resolve_steps_wildcard (steps : List Step) (rest : Plan) (document : Json) :
    resolve (steps.map .step ++ .wildcard :: rest) (some document) =
      (spread (document.find? steps)).map fun item =>
        (resolve rest (some item)).head?.getD .null := by
  rw [resolve_steps_append, Option.bind_some, resolve_wildcard]

lemma head?_resolve_steps (steps : List Step) (item : Json) :
    (resolve (steps.map .step) (some item)).head?.getD .null = firstValue (item.find? steps) := by
  rw [resolve_steps, resolve_nil, head?_spread]

end Plan

namespace SlashedPath

variable {source : String} {path : SlashedPath}

theorem exists_parse_of_append (h : parse source = .ok path) {before rest : Plan}
    (hplan : path.plan = before ++ rest) (hw : rest.hasWildcard) :
    ∃ text tail, parse text = .ok tail ∧ tail.plan = rest := by
  obtain ⟨-, hempty⟩ := exists_parse_iff.mp ⟨path, h⟩
  rw [plan_of_parse h] at hplan
  obtain ⟨first, last, hpieces, -, rfl⟩ := List.map_eq_append_iff.mp hplan
  have hstar : ['*'] ∈ last := by
    obtain ⟨segment, hmem, hsegment⟩ := List.any_eq_true.mp hw
    obtain ⟨piece, hpiece, rfl⟩ := List.mem_map.mp hmem
    rwa [segmentOf_eq_wildcard_iff.mp (beq_iff_eq.mp hsegment)] at hpiece
  have hlast : pieces '/' (joinPieces ['/'] last) = last := by
    rw [joinPieces_eq_intercalate, pieces_intercalate (List.ne_nil_of_mem hstar)]
    intro piece hpiece
    exact not_mem_of_mem_pieces (hpieces ▸ List.mem_append_right first hpiece)
  refine ⟨String.ofList (joinPieces ['/'] last), _, parse_of_pieces ?_ ?_, ?_⟩
  · rw [String.toList_ofList]
    by_contra hblank
    rw [Bool.not_eq_false, isAllBlank, List.all_eq_true] at hblank
    exact absurd (hblank '*' (mem_joinPieces hstar List.mem_cons_self)) (by decide)
  · rw [String.toList_ofList, hlast]
    intro hmem
    exact hempty (hpieces ▸ List.mem_append_right first hmem)
  · rw [String.toList_ofList, hlast]

/-- Without wildcards an expression gives the items of what is found at its steps. With a first
wildcard it gives one value for each item found at the steps before it: what the item has at the
steps behind the wildcard, as a single value, or with further wildcards there the first value that
the rest of the expression gives for the item. So expressions with the same steps before their first
wildcards give as many values as each other. -/
theorem evaluate_eq_lookups (h : parse source = .ok path) (document : Json) :
    ((∃ steps : List Step, path.plan = steps.map .step) ∨
      ∃ (steps : List Step) (rest : Plan), path.plan = steps.map .step ++ .wildcard :: rest) ∧
    (∀ steps : List Step, path.plan = steps.map .step →
      path.evaluate document = spread (document.find? steps)) ∧
    ∀ (steps : List Step) (rest : Plan), path.plan = steps.map .step ++ .wildcard :: rest →
      (path.evaluate document).length = (spread (document.find? steps)).length ∧
      (∀ (i : Nat) (item : Json), (spread (document.find? steps))[i]? = some item →
        (∀ below : List Step, rest = below.map .step →
          (path.evaluate document)[i]? = some (firstValue (item.find? below))) ∧
        (rest.hasWildcard → ∃ text tail, parse text = .ok tail ∧ tail.plan = rest ∧
          (path.evaluate document)[i]? = some ((tail.evaluate item).head?.getD .null))) ∧
      ∀ (other : String) (otherPath : SlashedPath) (otherRest : Plan),
        parse other = .ok otherPath → otherPath.plan = steps.map .step ++ .wildcard :: otherRest →
        (otherPath.evaluate document).length = (path.evaluate document).length := by
  refine ⟨?_, fun steps hplan => ?_, fun steps rest hplan => ?_⟩
  · by_cases hw : path.plan.hasWildcard
    · exact .inr (Plan.exists_eq_append_wildcard hw)
    · exact .inl ⟨path.plan.pathAt 0, Plan.eq_map_step (by simpa using hw) 0⟩
  · rw [evaluate, hplan, Plan.resolve_steps, Plan.resolve_nil]
  · have hvalues : path.evaluate document = (spread (document.find? steps)).map fun item =>
        (Plan.resolve rest (some item)).head?.getD .null := by
      rw [evaluate, hplan, Plan.resolve_steps_wildcard]
    refine ⟨by rw [hvalues, List.length_map], fun i item hitem => ⟨?_, fun hw => ?_⟩, ?_⟩
    · rintro below rfl
      rw [hvalues, List.getElem?_map, hitem, Option.map_some, Plan.head?_resolve_steps]
    · rw [← List.singleton_append, ← List.append_assoc] at hplan
      obtain ⟨text, tail, htail, rfl⟩ := exists_parse_of_append h hplan hw
      refine ⟨text, tail, htail, rfl, ?_⟩
      rw [hvalues, List.getElem?_map, hitem, Option.map_some, evaluate]
    · intro other otherPath otherRest _ hother
      rw [hvalues, evaluate, hother, Plan.resolve_steps_wildcard, List.length_map, List.length_map]

section Authors

/-- Authors of whom one has names, one an empty list of them and one is no object. -/
def authors : Json :=
  .object [("authors", .list [.object [("names", .list [.string "Ann", .string "A."])],
    .object [("names", .list [])], .string "Bo"])]

/-- Each author has one value, whatever names there are, be it with a wildcard behind the names or
without one. -/
theorem evaluate_eq_lookups_authors :
    ∃ names all, parse "authors/*/names" = .ok names ∧ parse "authors/*/names/*" = .ok all ∧
      (names.evaluate authors).length = 3 ∧ (all.evaluate authors).length = 3 ∧
      (names.evaluate authors)[0]? = some (.string "Ann") ∧
      (names.evaluate authors)[1]? = some .null ∧ (names.evaluate authors)[2]? = some .null ∧
      ∃ text tail, parse text = .ok tail ∧ tail.plan = [.step (.key "names"), .wildcard] ∧
        (all.evaluate authors)[0]? =
          some ((tail.evaluate (.object [("names", .list [.string "Ann", .string "A."])])).head?.getD
            .null) := by
  have hnames : parse "authors/*/names" = .ok ⟨"authors/*/names",
      [.step (.key "authors"), .wildcard, .step (.key "names")]⟩ := rfl
  have hall : parse "authors/*/names/*" = .ok ⟨"authors/*/names/*",
      [.step (.key "authors"), .wildcard, .step (.key "names"), .wildcard]⟩ := rfl
  obtain ⟨-, -, hvalues⟩ := evaluate_eq_lookups hnames authors
  obtain ⟨hlength, hitems, hothers⟩ := hvalues [.key "authors"] [.step (.key "names")] rfl
  obtain ⟨-, -, hmore⟩ := evaluate_eq_lookups hall authors
  obtain ⟨-, hnested, -⟩ := hmore [.key "authors"] [.step (.key "names"), .wildcard] rfl
  refine ⟨_, _, hnames, hall, hlength, (hothers _ _ _ hall rfl).trans hlength,
    (hitems 0 _ rfl).1 [.key "names"] rfl, (hitems 1 _ rfl).1 [.key "names"] rfl,
    (hitems 2 _ rfl).1 [.key "names"] rfl, (hnested 0 _ rfl).2 rfl⟩

end Authors

end SlashedPath

end RecordMapping

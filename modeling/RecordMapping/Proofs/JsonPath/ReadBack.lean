import RecordMapping.Dialect
import RecordMapping.Proofs.JsonPath.Chains
import RecordMapping.Proofs.Plan.ReadBack

/-!
# Reading back through path queries

A normalized query is read by the query engine and written by its plan, and the two do not always
agree. Main statement: a scalar that is written into an empty document is read back by its query
exactly when every dotted name is a single word and the plan has no position but zero below its
first segment; otherwise nothing is found.
-/

namespace RecordMapping

open Normalized JsonPath

namespace Plan

lemma inject_singleton (plan : Plan) (value : Json) (cardinality : Cardinality)
    (document : Json) :
    plan.inject [value] cardinality document = Json.write value (plan.pathAt 0) document := by
  unfold inject
  split
  · simp only [writeFrom]
    cases Json.write value (plan.pathAt 0) document <;> rfl
  · rfl

end Plan

/-- What a program that was read of forms selects in a document into which their plan wrote: the
written value or nothing. -/
lemma select_of_readAs {forms : List Form} {program : Program} (hread : ReadAs forms program)
    (hone : (∀ form ∈ forms, ¬ form.Broken) ∨ Plan.Placed (forms.map Form.segment))
    {value document : Json} (hscalar : value.isContainer = false)
    (hwrite : Json.write value (Plan.pathAt (forms.map Form.segment) 0) (.object []) =
      .ok document) :
    ((∀ form ∈ forms, ¬ form.Broken) ∧ Plan.Placed (forms.map Form.segment) →
      select program document = [value]) ∧
    (¬ ((∀ form ∈ forms, ¬ form.Broken) ∧ Plan.Placed (forms.map Form.segment)) →
      select program document = []) := by
  cases hread with
  | whole hwhole =>
    obtain ⟨hfound, hlost⟩ := Plan.reach_write_empty hscalar hwrite
    rw [select_instructions]
    exact ⟨fun hall => hfound hall.2, fun hnot => hlost fun hplaced => hnot ⟨hwhole, hplaced⟩⟩
  | @part before after name word split broken other =>
    have hmem : Form.dotted name ∈ forms := by simp [split]
    have hbroken : ¬ ∀ form ∈ forms, ¬ form.Broken := fun hwhole => hwhole _ hmem broken
    refine ⟨fun hall => absurd hall.1 hbroken, fun _ => ?_⟩
    have hplaced := hone.resolve_left hbroken
    have hnames : String.ofList name ≠ String.ofList word := fun hsame =>
      other (String.ofList_injective hsame).symm
    have hprogram : before.flatMap Form.instructions ++ [.into, .name (String.ofList word)] =
        (before ++ [Form.dotted word]).flatMap Form.instructions := by
      simp [Form.instructions]
    rw [split, List.map_append, List.map_cons] at hplaced hwrite
    rw [hprogram, select_instructions, List.map_append]
    exact Plan.reach_other_name hnames hplaced hwrite

namespace PathQuery

variable {source : String} {query : PathQuery} {plan : Plan}

lemma parse_ok (h : parse source = .ok query) :
    JsonPath.read? (trim source.toList) = some query.program ∧
      query.writable = Normalized.plan? (trim source.toList) := by
  unfold parse at h
  dsimp only at h
  split_ifs at h
  split at h
  · cases h
  · rename_i program hprogram
    cases h
    exact ⟨hprogram, rfl⟩

lemma evaluate_of_scalars {document : Json}
    (h : ∀ value ∈ select query.program document, value.isContainer = false) :
    query.evaluate document = select query.program document := by
  unfold evaluate
  dsimp only
  split
  · rename_i items _ hitems
    cases h (.list items) (by simp [hitems])
  · rfl

lemma evaluate_of_select {document value : Json} (hscalar : value.isContainer = false)
    {found : List Json} (hfound : found = [value] ∨ found = [])
    (h : select query.program document = found) : query.evaluate document = found := by
  rw [evaluate_of_scalars, h]
  rw [h]
  obtain rfl | rfl := hfound <;> simp [hscalar]

/-- A normalized query consists of forms of steps. If no quoted one of them has a backslash before
its closing quote, and it does not have both a broken name and a position out of place, then a
scalar that was written into an empty document is read back exactly when it has neither, and
nothing is found otherwise. -/
theorem evaluate_inject_empty_iff (hparse : parse source = .ok query)
    (hplan : query.writable = some plan) :
    (∃ forms, Writes forms (trim source.toList) plan) ∧
    ∀ forms, Writes forms (trim source.toList) plan →
      (∀ form ∈ forms, ¬ form.Escaping) → (∀ form ∈ forms, ¬ form.Broken) ∨ plan.Placed →
      ∀ (value : Json) (cardinality : Cardinality) (document : Json),
        value.isContainer = false →
        (Expression.jsonPath query).inject [value] cardinality (.object []) = .ok document →
        (query.evaluate document = [value] ↔
          (∀ form ∈ forms, ¬ form.Broken) ∧ plan.Placed) ∧
        (¬ ((∀ form ∈ forms, ¬ form.Broken) ∧ plan.Placed) → query.evaluate document = []) := by
  obtain ⟨hread, hwritable⟩ := parse_ok hparse
  refine ⟨exists_writes (hwritable.symm.trans hplan), ?_⟩
  intro forms hwrites hescaping hone value cardinality document hscalar hinject
  have hplans : (Expression.jsonPath query).plan? = some plan := hplan
  have hwrite : Json.write value (plan.pathAt 0) (.object []) = .ok document := by
    rw [← Plan.inject_singleton plan value cardinality]
    exact Expression.inject_ok hplans hinject
  have hprogram := readAs_of_read? hwrites hescaping hread
  obtain ⟨-, -, rfl⟩ := hwrites
  obtain ⟨hfound, hlost⟩ := select_of_readAs hprogram hone hscalar hwrite
  refine ⟨⟨fun hvalue => ?_, fun hall => evaluate_of_select hscalar (.inl rfl) (hfound hall)⟩,
    fun hnot => evaluate_of_select hscalar (.inr rfl) (hlost hnot)⟩
  by_contra hnot
  rw [evaluate_of_select hscalar (.inr rfl) (hlost hnot)] at hvalue
  cases hvalue

section Items

def secondItem : PathQuery where
  source := "$.items[1]"
  program := [.into, .name "items", .bracket, .number (.ofInt 1), .close]
  writable := some [.step (.key "items"), .step (.index 1)]

def secondItemForms : List Form := [.dotted ['i', 't', 'e', 'm', 's'], .position [] ['1'] []]

def allItems : PathQuery where
  source := "$.items"
  program := [.into, .name "items"]
  writable := some [.step (.key "items")]

def allItemsForms : List Form := [.dotted ['i', 't', 'e', 'm', 's']]

lemma read?_secondItem : JsonPath.read? "$.items[1]".toList = some secondItem.program := by
  -- The double of the position is kept as it stands: to compare it would mean to compute it.
  have htokens : tokens "$.items[1]".toList =
      [.root, .dot, .word "items".toList, .openBracket, .word ['1'], .closeBracket] := by
    decide
  have hsteps (fuel : Nat) : readSteps? (fuel + 5)
      [.dot, .word "items".toList, .openBracket, .word ['1'], .closeBracket] =
        some (secondItem.program, []) := by
    simp only [readSteps?, readDotted?, String.ofList_toList]
    rfl
  rw [JsonPath.read?, htokens]
  exact congrArg (Option.map Prod.fst) (hsteps 19)

lemma parse_secondItem : parse "$.items[1]" = .ok secondItem := by
  have htrim : trim "$.items[1]".toList = "$.items[1]".toList := by decide
  have hempty : "$.items[1]".toList.isEmpty = false := by decide
  have hplan : plan? "$.items[1]".toList = secondItem.writable := by decide
  unfold parse
  dsimp only
  rw [htrim, hempty, read?_secondItem, hplan, String.ofList_toList]
  exact if_neg Bool.false_ne_true

lemma valid_items : (Form.dotted ['i', 't', 'e', 'm', 's']).Valid :=
  .dotted (by decide) (by simp [isNameChar])

lemma writes_secondItem : Writes secondItemForms (trim "$.items[1]".toList)
    [.step (.key "items"), .step (.index 1)] where
  valid := by
    intro form hform
    rw [secondItemForms, List.mem_cons, List.mem_singleton] at hform
    obtain rfl | rfl := hform
    · exact valid_items
    · exact .position rfl (by simp) (by simp) rfl
  text_eq := by decide
  plan_eq := by decide

lemma writes_allItems : Writes allItemsForms (trim "$.items".toList) [.step (.key "items")] where
  valid := List.forall_mem_singleton.mpr valid_items
  text_eq := by decide
  plan_eq := by decide

lemma unbroken_items : Unbroken ['i', 't', 'e', 'm', 's'] := by
  simp [Unbroken, continues, continuesWord, continuesRoot, isPunctuation, isBlank]

/-- A second item is written into an empty document as a member, where it is not found again; the
items themselves are. -/
theorem evaluate_inject_empty_iff_items :
    parse "$.items[1]" = .ok secondItem ∧
    (Expression.jsonPath secondItem).inject [.string "x"] .unlimited (.object []) =
      .ok (.object [("items", .object [("1", .string "x")])]) ∧
    secondItem.evaluate (.object [("items", .object [("1", .string "x")])]) = [] ∧
    parse "$.items" = .ok allItems ∧
    (Expression.jsonPath allItems).inject [.string "x"] .unlimited (.object []) =
      .ok (.object [("items", .string "x")]) ∧
    allItems.evaluate (.object [("items", .string "x")]) = [.string "x"] := by
  have hparse : parse "$.items" = .ok allItems := rfl
  have hsecond : ∀ form ∈ secondItemForms, ¬ form.Broken ∧ ¬ form.Escaping := by
    simp [secondItemForms, unbroken_items, Form.Broken, Form.Escaping]
  have hitems : ∀ form ∈ allItemsForms, ¬ form.Broken ∧ ¬ form.Escaping := by
    simp [allItemsForms, unbroken_items, Form.Broken, Form.Escaping]
  obtain ⟨-, hlost⟩ := (evaluate_inject_empty_iff parse_secondItem rfl).2 secondItemForms
    writes_secondItem (fun form hform => (hsecond form hform).2)
    (.inl fun form hform => (hsecond form hform).1) (.string "x") .unlimited
    (.object [("items", .object [("1", .string "x")])]) rfl rfl
  obtain ⟨hfound, -⟩ := (evaluate_inject_empty_iff hparse rfl).2 allItemsForms
    writes_allItems (fun form hform => (hitems form hform).2)
    (.inl fun form hform => (hitems form hform).1) (.string "x") .unlimited
    (.object [("items", .string "x")]) rfl rfl
  refine ⟨parse_secondItem, rfl, hlost ?_, hparse, rfl, hfound.mpr ⟨?_, ?_, ?_⟩⟩
  · rintro ⟨-, hplaced⟩
    exact absurd (hplaced.zero 1 (by simp)) (by decide)
  · exact fun form hform => (hitems form hform).1
  · simp
  · simp [Plan.AtZero]

end Items

end PathQuery

end RecordMapping

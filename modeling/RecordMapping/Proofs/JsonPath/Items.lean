import RecordMapping.Proofs.JsonPath.ReadBack

namespace RecordMapping

open Normalized JsonPath

/-- A name that can stand after a dot and is read there as one word. -/
structure PlainName (name : String) : Prop where
  valid : (Form.dotted name.toList).Valid
  unbroken : Unbroken name.toList

lemma Plan.reach_append (first second : Plan) (values : List Json) :
    Plan.reach (first ++ second) values = second.reach (first.reach values) :=
  List.foldl_append

lemma Plan.reach_items (name : String) (items : List Json) :
    Plan.reach [.wildcard, .step (.key name)] [.list items] =
      items.filterMap (Json.member? name) := by
  rw [List.filterMap_eq_flatMap_toList, reach_cons, reach_cons, List.flatMap_singleton]
  rfl

namespace PathQuery

variable {source text name : String} {list query : PathQuery}

/-- Whether a query consists of steps in normalized forms that are read as they are written. -/
def ReadWhole (query : PathQuery) : Prop :=
  ∃ forms plan, Writes forms query.source.toList plan ∧
    ∀ form ∈ forms, ¬ form.Broken ∧ ¬ form.Escaping

lemma source_of_parse (h : parse source = .ok query) :
    query.source.toList = trim source.toList := by
  unfold parse at h
  dsimp only at h
  split_ifs at h
  split at h
  · cases h
  · cases h
    exact String.toList_ofList

lemma program_of_parse (h : parse source = .ok query) {forms : List Form} {plan : Plan}
    (hwrites : Writes forms query.source.toList plan)
    (hforms : ∀ form ∈ forms, ¬ form.Broken ∧ ¬ form.Escaping) :
    query.program = forms.flatMap Form.instructions := by
  rw [source_of_parse h] at hwrites
  have hread := readAs_of_read? hwrites (fun form hform => (hforms form hform).2) (parse_ok h).1
  generalize query.program = program at hread
  cases hread with
  | whole => rfl
  | @part before after name word split broken =>
    exact absurd broken (hforms (.dotted name) (by simp [split])).1

lemma writes_append_member {forms : List Form} {plan : Plan}
    (h : Writes forms source.toList plan) (hname : PlainName name) :
    Writes (forms ++ [.star [] [], .dotted name.toList]) (source ++ "[*]." ++ name).toList
      (plan ++ [.wildcard, .step (.key name)]) where
  valid := by
    intro form hform
    obtain hform | hform := List.mem_append.mp hform
    · exact h.valid form hform
    · simp only [List.mem_cons, List.not_mem_nil, or_false] at hform
      obtain rfl | rfl := hform
      · exact .star rfl rfl
      · exact hname.valid
  text_eq := by simp [h.text_eq, Form.text]
  plan_eq := by simp [h.plan_eq, Form.segment]

/-- In a document in which a query finds a list, the query that goes on with a star and a plain name
finds the members of that name of the items that have one. -/
theorem evaluate_member (hlist : parse source = .ok list) (hwhole : list.ReadWhole)
    (hname : PlainName name) (hquery : parse text = .ok query)
    (hsource : query.source = list.source ++ "[*]." ++ name) {document : Json} {items : List Json}
    (hitems : select list.program document = [.list items])
    (hscalar : ∀ item ∈ items, ∀ value, item.member? name = some value →
      value.isContainer = false) :
    query.evaluate document = items.filterMap (Json.member? name) := by
  obtain ⟨forms, plan, hwrites, hforms⟩ := hwhole
  have hmore : ∀ form ∈ forms ++ [.star [] [], .dotted name.toList],
      ¬ form.Broken ∧ ¬ form.Escaping := by
    intro form hform
    obtain hform | hform := List.mem_append.mp hform
    · exact hforms form hform
    · simp only [List.mem_cons, List.not_mem_nil, or_false] at hform
      obtain rfl | rfl := hform <;> simp [Form.Broken, Form.Escaping, hname.unbroken]
  have hselect : select query.program document = items.filterMap (Json.member? name) := by
    rw [program_of_parse hlist hwrites hforms, select_instructions, ← hwrites.plan_eq] at hitems
    have hlonger := writes_append_member hwrites hname
    rw [← hsource] at hlonger
    rw [program_of_parse hquery hlonger hmore, select_instructions, ← hlonger.plan_eq,
      Plan.reach_append, hitems, Plan.reach_items]
  rw [evaluate_of_scalars, hselect]
  rw [hselect]
  intro value hvalue
  obtain ⟨item, hitem, hmember⟩ := List.mem_filterMap.mp hvalue
  exact hscalar item hitem value hmember

end PathQuery

end RecordMapping

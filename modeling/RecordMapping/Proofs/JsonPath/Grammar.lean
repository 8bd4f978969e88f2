import RecordMapping.Proofs.JsonPath.Programs

/-!
# The grammar of normalized queries

A dollar sign and valid forms are read again form by form, if their positions are words. Main
statement: the normalized queries are the texts of this grammar, and each of them is written in one
way only. So a plan that is rendered in brackets is read back.
-/

namespace RecordMapping

namespace Normalized

open JsonPath

namespace Form

lemma text_ne_nil (form : Form) : form.text ≠ [] := by
  cases form <;> exact List.cons_ne_nil _ _

lemma length_le_flatMap_text (forms : List Form) :
    forms.length ≤ (forms.flatMap Form.text).length := by
  induction forms with
  | nil => exact le_rfl
  | cons form rest ih =>
    have hpositive := List.length_pos_iff.mpr form.text_ne_nil
    rw [List.flatMap_cons, List.length_append, List.length_cons]
    omega

end Form

variable {text rest rest' : List Char} {segment : Segment} {form form' : Form} {plan : Plan}

lemma not_isNameChar_of_goesOn (h : GoesOn rest) : ∀ c ∈ rest.head?, isNameChar c = false := by
  intro c hc
  obtain rfl | rfl := h c hc <;> rfl

lemma subscript?_star {before after : List Char} (hbefore : isAllBlank before)
    (hafter : isAllBlank after) : subscript? (before ++ ('*' :: after)) = some .wildcard := by
  have hstar : ∀ c ∈ ['*'], isBlank c = false := List.forall_mem_singleton.mpr (by decide)
  have htrim := trim_blanks hbefore hafter (List.cons_ne_nil _ _) hstar
  rw [List.singleton_append] at htrim
  simp only [subscript?, htrim, if_true]

lemma subscript?_digits {before digits after : List Char} (hbefore : isAllBlank before)
    (hne : digits ≠ []) (hdigits : ∀ c ∈ digits, c.isDigit) (hafter : isAllBlank after)
    (hfits : digitsValue digits < 2 ^ 64) :
    subscript? (before ++ (digits ++ after)) = some (.step (.index (digitsValue digits))) := by
  have hblank : ∀ c ∈ digits, isBlank c = false := fun c hc =>
    not_isBlank_of_isDigit (hdigits c hc)
  have hstar : digits ≠ ['*'] := by
    rintro rfl
    cases hdigits '*' List.mem_cons_self
  have hword : Numeral.word? digits = some (digitsValue digits) := by
    have hall : digits.all Char.isDigit := List.all_eq_true.mpr hdigits
    have hlt : ¬ wordEnd ≤ digitsValue digits := Nat.not_le.mpr hfits
    simp [Numeral.word?, hne, hall, hlt]
  simp only [subscript?, trim_blanks hbefore hafter hne hblank, if_neg hstar, hword,
    Option.map_some]

lemma bracketed?_quoted {quote : Char} {name : List Char} (hquote : quote = '\'' ∨ quote = '"')
    (hname : quote ∉ name) (rest : List Char) :
    bracketed? (quote :: (name ++ quote :: ']' :: rest)) =
      some (.step (.key (String.ofList name)), rest) := by
  obtain ⟨htake, hdrop⟩ := takeWhile_append_of_not_mem hname (']' :: rest)
  simp only [bracketed?, if_pos hquote, hdrop, htake]

lemma bracketed?_subscript {inner : List Char} (hne : inner ≠ [])
    (hinner : ∀ c ∈ inner, isBlank c ∨ c.isDigit ∨ c = '*') (rest : List Char) :
    bracketed? (inner ++ ']' :: rest) = (subscript? inner).map (·, rest) := by
  have hmark {d : Char} (hd : ¬ (isBlank d ∨ d.isDigit ∨ d = '*')) : d ∉ inner :=
    fun hmem => hd (hinner d hmem)
  obtain ⟨htake, hdrop⟩ := takeWhile_append_of_not_mem (hmark (d := ']') (by decide)) rest
  obtain ⟨c, more, rfl⟩ := List.exists_cons_of_ne_nil hne
  have hquote : ¬ (c = '\'' ∨ c = '"') := by
    rintro (rfl | rfl)
    · exact hmark (by decide) List.mem_cons_self
    · exact hmark (by decide) List.mem_cons_self
  rw [List.cons_append] at htake hdrop ⊢
  simp only [bracketed?, if_neg hquote, hdrop, htake]

theorem step?_form (hvalid : form.Valid) (hfits : form.Fits) (hrest : GoesOn rest) :
    step? (form.text ++ rest) = some (form.segment, rest) := by
  cases hvalid with
  | @dotted c name hstar hname =>
    obtain ⟨htake, hdrop⟩ := takeWhile_append_of_run hname (not_isNameChar_of_goesOn hrest)
    rw [Form.text, List.cons_append, step?]
    · rw [htake, hdrop]
      rfl
    · exact fun more hmore => hstar (List.cons.inj hmore).1
  | dottedStar => rfl
  | @quoted quote name hquote hname =>
    simpa [Form.text, Form.segment, step?] using bracketed?_quoted hquote hname rest
  | @position before digits after hbefore hdigits hall hafter =>
    have hinner : ∀ c ∈ before ++ (digits ++ after), isBlank c ∨ c.isDigit ∨ c = '*' := by
      simp only [List.forall_mem_append]
      exact ⟨fun c hc => .inl (List.all_eq_true.mp hbefore c hc),
        fun c hc => .inr (.inl (hall c hc)), fun c hc => .inl (List.all_eq_true.mp hafter c hc)⟩
    have hread := bracketed?_subscript (by simp [hdigits]) hinner rest
    rw [subscript?_digits hbefore hdigits hall hafter hfits] at hread
    simpa [Form.text, Form.segment, step?] using hread
  | @star before after hbefore hafter =>
    have hinner : ∀ c ∈ before ++ '*' :: after, isBlank c ∨ c.isDigit ∨ c = '*' := by
      rw [List.forall_mem_append, List.forall_mem_cons]
      exact ⟨fun c hc => .inl (List.all_eq_true.mp hbefore c hc), .inr (.inr rfl),
        fun c hc => .inl (List.all_eq_true.mp hafter c hc)⟩
    have hread := bracketed?_subscript (by simp) hinner rest
    rw [subscript?_star hbefore hafter] at hread
    simpa [Form.text, Form.segment, step?] using hread

theorem stepsUpTo?_forms {forms : List Form} (hvalid : ∀ form ∈ forms, form.Valid)
    (hfits : ∀ form ∈ forms, form.Fits) {bound : Nat} (hbound : forms.length ≤ bound) :
    stepsUpTo? bound (forms.flatMap Form.text) = some (forms.map Form.segment) := by
  induction forms generalizing bound with
  | nil => cases bound <;> rfl
  | cons form rest ih =>
    obtain ⟨hform, hforms⟩ := List.forall_mem_cons.mp hvalid
    obtain ⟨hfit, hfitting⟩ := List.forall_mem_cons.mp hfits
    cases bound with
    | zero => cases hbound
    | succ bound =>
      have hstep := step?_form hform hfit (goesOn_forms rest)
      have hmore := ih hforms hfitting (Nat.le_of_succ_le_succ hbound)
      rw [List.flatMap_cons]
      obtain ⟨c, more, htext⟩ := List.exists_cons_of_ne_nil form.text_ne_nil
      rw [htext, List.cons_append] at hstep ⊢
      simp only [stepsUpTo?, hstep, hmore]
      rfl

lemma not_isDigit_of_isBlank {c : Char} (h : isBlank c) : c.isDigit = false := by
  by_contra hdigit
  rw [Bool.not_eq_false] at hdigit
  rw [not_isBlank_of_isDigit hdigit] at h
  cases h

lemma form_eq_of_text_eq (hvalid : form.Valid) (hvalid' : form'.Valid)
    (hsegment : form.segment = form'.segment) (htext : form.text = form'.text) : form = form' := by
  cases hvalid with
  | dotted _ _ =>
    cases hvalid' with
    | dotted _ _ => rw [(List.cons.inj htext).2]
    | _ => simp [Form.segment, Form.text] at hsegment htext
  | dottedStar =>
    cases hvalid' with
    | dottedStar => rfl
    | _ => simp [Form.segment, Form.text] at hsegment htext
  | @quoted quote name _ _ =>
    cases hvalid' with
    | @quoted quote' name' _ _ =>
      obtain ⟨rfl, hname⟩ := List.cons.inj (List.cons.inj htext).2
      rw [List.append_cancel_right hname]
    | _ => simp [Form.segment, Form.text] at hsegment htext
  | @position before digits after hbefore hne hall hafter =>
    cases hvalid' with
    | @position before' digits' after' hbefore' hne' hall' hafter' =>
      have hblank {digits : List Char} (h : ∀ c ∈ digits, c.isDigit) :
          ∀ c ∈ digits, isBlank c = false := fun c hc => not_isBlank_of_isDigit (h c hc)
      have hend {after : List Char} (h : isAllBlank after) :
          ∀ c ∈ (after ++ [']']).head?, c.isDigit = false := by
        intro c hc
        obtain hmem | hmem := List.mem_append.mp (List.mem_of_mem_head? hc)
        · exact not_isDigit_of_isBlank (List.all_eq_true.mp h c hmem)
        · obtain rfl := List.mem_singleton.mp hmem
          rfl
      obtain ⟨rfl, hinner⟩ := eq_of_append_eq (List.all_eq_true.mp hbefore)
        (List.all_eq_true.mp hbefore') (forall_head?_append hne (hblank hall) _)
        (forall_head?_append hne' (hblank hall') _) (List.cons.inj htext).2
      obtain ⟨rfl, hclose⟩ := eq_of_append_eq hall hall' (hend hafter) (hend hafter') hinner
      rw [List.append_cancel_right hclose]
    | _ => simp [Form.segment] at hsegment
  | @star before after hbefore hafter =>
    cases hvalid' with
    | @star before' after' hbefore' hafter' =>
      have hstar {rest : List Char} : ∀ c ∈ ('*' :: rest).head?, isBlank c = false := by
        intro c hc
        obtain rfl := Option.some.inj hc
        decide
      obtain ⟨rfl, hinner⟩ := eq_of_append_eq (List.all_eq_true.mp hbefore)
        (List.all_eq_true.mp hbefore') hstar hstar (List.cons.inj htext).2
      rw [List.append_cancel_right (List.cons.inj hinner).2]
    | _ => simp [Form.segment, Form.text] at hsegment htext

/-- In front of the end or of another step, a text starts with one form at most. -/
theorem form_eq_of_append_eq (hvalid : form.Valid) (hvalid' : form'.Valid) (hfits : form.Fits)
    (hfits' : form'.Fits) (hrest : GoesOn rest) (hrest' : GoesOn rest')
    (h : form.text ++ rest = form'.text ++ rest') : form = form' ∧ rest = rest' := by
  have hread := step?_form hvalid hfits hrest
  rw [h, step?_form hvalid' hfits' hrest'] at hread
  obtain ⟨hsegment, rfl⟩ := Prod.mk.inj (Option.some.inj hread)
  exact ⟨form_eq_of_text_eq hvalid hvalid' hsegment.symm (List.append_cancel_right h), rfl⟩

theorem forms_eq_of_flatMap_eq {forms others : List Form}
    (hforms : ∀ form ∈ forms, form.Valid ∧ form.Fits)
    (hothers : ∀ form ∈ others, form.Valid ∧ form.Fits)
    (h : forms.flatMap Form.text = others.flatMap Form.text) : forms = others := by
  induction forms generalizing others with
  | nil =>
    cases others with
    | nil => rfl
    | cons other others =>
      rw [List.flatMap_cons] at h
      exact absurd (List.append_eq_nil_iff.mp h.symm).1 other.text_ne_nil
  | cons form forms ih =>
    cases others with
    | nil =>
      rw [List.flatMap_cons] at h
      exact absurd (List.append_eq_nil_iff.mp h).1 form.text_ne_nil
    | cons other others =>
      obtain ⟨⟨hvalid, hfits⟩, hmore⟩ := List.forall_mem_cons.mp hforms
      obtain ⟨⟨hvalid', hfits'⟩, hmore'⟩ := List.forall_mem_cons.mp hothers
      obtain ⟨rfl, hrest⟩ := form_eq_of_append_eq hvalid hvalid' hfits hfits' (goesOn_forms forms)
        (goesOn_forms others) h
      rw [ih hmore hmore' hrest]

lemma stepsUpTo?_eq_some_iff {bound : Nat} (hbound : text.length ≤ bound) :
    stepsUpTo? bound text = some plan ↔
      ∃ forms : List Form, (∀ form ∈ forms, form.Valid ∧ form.Fits) ∧
        plan = forms.map Form.segment ∧ text = forms.flatMap Form.text := by
  constructor
  · exact forms_of_stepsUpTo?
  · rintro ⟨forms, hforms, rfl, rfl⟩
    exact stepsUpTo?_forms (fun form hform => (hforms form hform).1)
      (fun form hform => (hforms form hform).2) ((Form.length_le_flatMap_text forms).trans hbound)

theorem plan?_eq_some_iff :
    plan? text = some plan ↔ ∃ forms, Writes forms text plan ∧ ∀ form ∈ forms, form.Fits := by
  constructor
  · intro h
    unfold plan? at h
    split at h
    · obtain ⟨forms, hforms, hplan, htext⟩ := (stepsUpTo?_eq_some_iff le_rfl).mp h
      exact ⟨forms, ⟨fun form hform => (hforms form hform).1, by rw [← htext], hplan⟩,
        fun form hform => (hforms form hform).2⟩
    · cases h
  · rintro ⟨forms, ⟨hvalid, rfl, rfl⟩, hfits⟩
    exact stepsUpTo?_forms hvalid hfits (Form.length_le_flatMap_text forms)

lemma length_lt_of_step? (h : step? text = some (segment, rest)) : rest.length < text.length := by
  obtain ⟨form, -, -, -, rfl⟩ := form_of_step? h
  have hpositive := List.length_pos_iff.mpr form.text_ne_nil
  rw [List.length_append]
  omega

/-- The form of a segment in brackets, with single quotes around a name. -/
def Form.bracketed : Segment → Form
  | .wildcard => .star [] []
  | .step (.index n) => .position [] (Nat.toDigits 10 n) []
  | .step (.key name) => .quoted '\'' name.toList

lemma Form.text_bracketed (segment : Segment) :
    (Form.bracketed segment).text = segmentText segment := by
  unfold segmentText
  split <;> rfl

lemma Form.segment_bracketed (segment : Segment) : (Form.bracketed segment).segment = segment := by
  unfold Form.bracketed
  split
  · rfl
  · rw [Form.segment, digitsValue, Nat.ofDigitChars_ten_toDigits]
  · rw [Form.segment, String.ofList_toList]

theorem plan?_render (hname : ∀ name, .step (.key name) ∈ plan → '\'' ∉ name.toList)
    (hposition : ∀ n, .step (.index n) ∈ plan → n < 2 ^ 64) :
    plan? (render plan) = some plan := by
  have htext : (plan.map Form.bracketed).flatMap Form.text = plan.flatMap segmentText := by
    rw [List.flatMap_map]
    simp only [Form.text_bracketed]
  have hplan : (plan.map Form.bracketed).map Form.segment = plan := by
    rw [List.map_map]
    conv_rhs => rw [← List.map_id plan]
    exact List.map_congr_left fun segment _ => Form.segment_bracketed segment
  refine plan?_eq_some_iff.mpr ⟨plan.map Form.bracketed, ⟨?_, by rw [htext, render], hplan.symm⟩, ?_⟩
  · intro form hform
    obtain ⟨segment, hmem, rfl⟩ := List.mem_map.mp hform
    unfold Form.bracketed
    split
    · exact .star rfl rfl
    · exact .position rfl Nat.toDigits_ne_nil (fun c => isDigit_of_mem_toDigits) rfl
    · exact .quoted (.inl rfl) (hname _ hmem)
  · intro form hform
    obtain ⟨segment, hmem, rfl⟩ := List.mem_map.mp hform
    unfold Form.bracketed
    split
    · trivial
    · rw [Form.Fits, digitsValue, Nat.ofDigitChars_ten_toDigits]
      exact hposition _ hmem
    · trivial

/-- A normalized query is a dollar sign and valid forms whose positions are below `2 ^ 64`, and
stands for their segments in order. No other forms have its text. Each step takes something of the
text, so the steps come to an end: a bound above the length of the text changes nothing. A plan
without single quotes in its names is read back from its query in brackets. -/
theorem plan?_grammar (text : List Char) :
    (∀ plan, plan? text = some plan ↔
      ∃ forms, Writes forms text plan ∧ ∀ form ∈ forms, form.Fits) ∧
    (∀ forms others plan other, Writes forms text plan → Writes others text other →
      (∀ form ∈ forms, form.Fits) → (∀ form ∈ others, form.Fits) →
      forms = others ∧ plan = other) ∧
    (∀ segment rest, step? text = some (segment, rest) → rest.length < text.length) ∧
    (∀ bound, text.length ≤ bound → stepsUpTo? bound text = stepsUpTo? text.length text) ∧
    ∀ plan : Plan, (∀ name, .step (.key name) ∈ plan → '\'' ∉ name.toList) →
      (∀ n, .step (.index n) ∈ plan → n < 2 ^ 64) → plan? (render plan) = some plan := by
  refine ⟨fun plan => plan?_eq_some_iff, ?_, fun segment rest => length_lt_of_step?,
    fun bound hbound => ?_, fun plan => plan?_render⟩
  · rintro forms others plan other ⟨hvalid, htext, rfl⟩ ⟨hvalid', htext', rfl⟩ hfits hfits'
    rw [htext] at htext'
    obtain rfl := forms_eq_of_flatMap_eq (fun form hform => ⟨hvalid form hform, hfits form hform⟩)
      (fun form hform => ⟨hvalid' form hform, hfits' form hform⟩) (List.cons.inj htext').2
    exact ⟨rfl, rfl⟩
  · apply Option.ext
    intro plan
    rw [stepsUpTo?_eq_some_iff hbound, stepsUpTo?_eq_some_iff le_rfl]

section Codes

/-- The bracket of a quoted name and a position between blanks. -/
def codeForms : List Form :=
  [.dotted ['a'], .quoted '\'' ['b', ']'], .position [' '] ['0', '7'] [' '], .dottedStar]

def codePlan : Plan :=
  [.step (.key "a"), .step (.key "b]"), .step (.index 7), .wildcard]

lemma writes_codes : Writes codeForms "$.a['b]'][ 07 ].*".toList codePlan where
  valid := by
    simp only [codeForms, List.forall_mem_cons]
    exact ⟨.dotted (by decide) (by simp [isNameChar]), .quoted (.inl rfl) (by decide),
      .position (by decide) (by simp) (by simp) (by decide), .dottedStar, List.forall_mem_nil _⟩
  text_eq := by decide
  plan_eq := by decide

lemma fits_codes : ∀ form ∈ codeForms, form.Fits := by
  have hseven : digitsValue ['0', '7'] < 2 ^ 64 := by decide
  simp only [codeForms, List.forall_mem_cons]
  exact ⟨trivial, trivial, hseven, trivial, List.forall_mem_nil _⟩

/-- The forms of a query, of which there are no others, give its plan; in brackets the plan has a
query of its own. -/
theorem plan?_grammar_codes :
    plan? "$.a['b]'][ 07 ].*".toList = some codePlan ∧
    (∀ others other, Writes others "$.a['b]'][ 07 ].*".toList other →
      (∀ form ∈ others, form.Fits) → others = codeForms) ∧
    plan? "$['a']['b]'][7][*]".toList = some codePlan := by
  obtain ⟨haccepted, hunique, -, -, hrender⟩ := plan?_grammar "$.a['b]'][ 07 ].*".toList
  refine ⟨(haccepted codePlan).mpr ⟨codeForms, writes_codes, fits_codes⟩, ?_, ?_⟩
  · intro others other hwrites hfits
    exact (hunique _ _ _ _ hwrites writes_codes hfits fits_codes).1
  · have htext : "$['a']['b]'][7][*]".toList = render codePlan := by decide
    rw [htext]
    apply hrender
    · simp [codePlan]
    · simp [codePlan]

end Codes

end Normalized

end RecordMapping

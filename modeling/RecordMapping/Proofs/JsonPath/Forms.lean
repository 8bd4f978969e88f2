import RecordMapping.JsonPath.Query
import RecordMapping.Proofs.JsonPath.Tokens

namespace RecordMapping

namespace Normalized

/-- A step of a normalized query as it is written. Blanks may stand around what is unquoted in
brackets. -/
inductive Form where
  | dotted (name : List Char)
  | dottedStar
  | quoted (quote : Char) (name : List Char)
  | position (before digits after : List Char)
  | star (before after : List Char)

namespace Form

def text : Form → List Char
  | .dotted name => '.' :: name
  | .dottedStar => ['.', '*']
  | .quoted quote name => '[' :: quote :: (name ++ [quote, ']'])
  | .position before digits after => '[' :: (before ++ (digits ++ (after ++ [']'])))
  | .star before after => '[' :: (before ++ ('*' :: (after ++ [']'])))

def segment : Form → Segment
  | .dotted name => .step (.key (String.ofList name))
  | .dottedStar => .wildcard
  | .quoted _ name => .step (.key (String.ofList name))
  | .position _ digits _ => .step (.index (digitsValue digits))
  | .star _ _ => .wildcard

inductive Valid : Form → Prop where
  | dotted {c : Char} {name : List Char} (hstar : c ≠ '*') (h : ∀ d ∈ c :: name, isNameChar d) :
      Valid (.dotted (c :: name))
  | dottedStar : Valid .dottedStar
  | quoted {quote : Char} {name : List Char} (hquote : quote = '\'' ∨ quote = '"')
      (h : quote ∉ name) : Valid (.quoted quote name)
  | position {before digits after : List Char} (hbefore : isAllBlank before)
      (hdigits : digits ≠ []) (hall : ∀ c ∈ digits, c.isDigit) (hafter : isAllBlank after) :
      Valid (.position before digits after)
  | star {before after : List Char} (hbefore : isAllBlank before) (hafter : isAllBlank after) :
      Valid (.star before after)

/-- Whether the position of a form is below `2 ^ 64`. -/
def Fits : Form → Prop
  | .position _ digits _ => digitsValue digits < 2 ^ 64
  | _ => True

end Form

open Form

variable {text rest : List Char} {segment : Segment}

lemma word?_eq_some {digits : List Char} {n : Nat} (h : Numeral.word? digits = some n) :
    digits ≠ [] ∧ (∀ c ∈ digits, c.isDigit) ∧ digitsValue digits < 2 ^ 64 ∧
      n = digitsValue digits := by
  unfold Numeral.word? at h
  split_ifs at h with hrefused
  simp only [Bool.or_eq_true, Bool.not_eq_true', not_or, List.isEmpty_iff, decide_eq_true_eq,
    Nat.not_le] at hrefused
  cases h
  exact ⟨hrefused.1.1, by simpa using hrefused.1.2, hrefused.2, rfl⟩

lemma form_of_subscript? {inner : List Char} (h : subscript? inner = some segment) :
    ∃ form : Form, form.Valid ∧ form.Fits ∧ form.segment = segment ∧
      form.text = '[' :: (inner ++ [']']) := by
  obtain ⟨before, after, hbefore, hafter, hinner⟩ := exists_blanks_trim inner
  unfold subscript? at h
  dsimp only at h
  generalize trim inner = trimmed at h hinner
  subst hinner
  split_ifs at h with hstar
  · cases h
    subst hstar
    exact ⟨.star before after, .star hbefore hafter, trivial, rfl, by simp [Form.text]⟩
  · obtain ⟨n, hword, rfl⟩ := Option.map_eq_some_iff.mp h
    obtain ⟨hne, hall, hlt, rfl⟩ := word?_eq_some hword
    exact ⟨.position before trimmed after, .position hbefore hne hall hafter, hlt, rfl,
      by simp [Form.text]⟩

lemma form_of_bracketed? (h : bracketed? text = some (segment, rest)) :
    ∃ form : Form, form.Valid ∧ form.Fits ∧ form.segment = segment ∧
      '[' :: text = form.text ++ rest := by
  cases text with
  | nil => cases h
  | cons c inner =>
    simp only [bracketed?] at h
    split_ifs at h with hquote
    · split at h
      · rename_i d after hdrop
        cases h
        have hinner := eq_takeWhile_append hdrop
        refine ⟨.quoted c (inner.takeWhile (· ≠ c)),
          .quoted hquote (not_mem_takeWhile_ne c inner), trivial, rfl, ?_⟩
        nth_rewrite 1 [hinner]
        simp [Form.text]
      · cases h
    · split at h
      · cases h
      · rename_i d after hdrop
        obtain ⟨found, hsubscript, h⟩ := Option.map_eq_some_iff.mp h
        cases h
        have htext := eq_takeWhile_append hdrop
        obtain ⟨form, hvalid, hfits, hsegment, hform⟩ := form_of_subscript? hsubscript
        refine ⟨form, hvalid, hfits, hsegment, ?_⟩
        rw [hform]
        nth_rewrite 1 [htext]
        simp

lemma form_of_step? (h : step? text = some (segment, rest)) :
    ∃ form : Form, form.Valid ∧ form.Fits ∧ form.segment = segment ∧
      text = form.text ++ rest := by
  unfold step? at h
  split at h
  · cases h
    exact ⟨.dottedStar, .dottedStar, trivial, rfl, rfl⟩
  · rename_i after hstar
    dsimp only at h
    split_ifs at h with hempty
    cases h
    have hsplit := List.takeWhile_append_dropWhile (p := isNameChar) (l := after)
    have hname : ∀ d ∈ after.takeWhile isNameChar, isNameChar d := fun d => List.mem_takeWhile_imp
    cases hcase : after.takeWhile isNameChar with
    | nil => exact absurd (by rw [hcase]; rfl) hempty
    | cons c name =>
      rw [hcase] at hsplit hname
      refine ⟨.dotted (c :: name), .dotted ?_ hname, trivial, rfl,
        by rw [Form.text, List.cons_append, hsplit]⟩
      rintro rfl
      exact hstar _ hsplit.symm
  · exact form_of_bracketed? h
  · cases h

theorem forms_of_stepsUpTo? {fuel : Nat} {plan : Plan} (h : stepsUpTo? fuel text = some plan) :
    ∃ forms : List Form, (∀ form ∈ forms, form.Valid ∧ form.Fits) ∧
      plan = forms.map Form.segment ∧ text = forms.flatMap Form.text := by
  induction fuel generalizing text plan with
  | zero =>
    cases text with
    | nil =>
      cases h
      exact ⟨[], by simp, rfl, rfl⟩
    | cons c after => cases h
  | succ fuel ih =>
    cases text with
    | nil =>
      cases h
      exact ⟨[], by simp, rfl, rfl⟩
    | cons c after =>
      rw [stepsUpTo?] at h
      split at h
      · cases h
      · rename_i segment rest hstep
        obtain ⟨more, hmore, rfl⟩ := Option.map_eq_some_iff.mp h
        obtain ⟨form, hvalid, hfits, hsegment, htext⟩ := form_of_step? hstep
        obtain ⟨forms, hforms, rfl, rfl⟩ := ih hmore
        exact ⟨form :: forms, List.forall_mem_cons.mpr ⟨⟨hvalid, hfits⟩, hforms⟩, by simp [hsegment],
          by simp [htext]⟩

/-- The forms that a query consists of after its dollar sign, and their plan. -/
structure Writes (forms : List Form) (text : List Char) (plan : Plan) : Prop where
  valid : ∀ form ∈ forms, form.Valid
  text_eq : text = '$' :: forms.flatMap Form.text
  plan_eq : plan = forms.map Form.segment

/-- A normalized query is a dollar sign and forms. -/
theorem exists_writes {plan : Plan} (h : plan? text = some plan) :
    ∃ forms, Writes forms text plan := by
  unfold plan? at h
  split at h
  · obtain ⟨forms, hforms, hplan, htext⟩ := forms_of_stepsUpTo? h
    exact ⟨forms, fun form hform => (hforms form hform).1, by rw [← htext], hplan⟩
  · cases h

end Normalized

end RecordMapping

import RecordMapping.Proofs.Json.Layouts
import RecordMapping.Proofs.JsonPath.Forms

/-!
# Programs of normalized queries

The query engine reads a form as the step it is written for, with two exceptions: of a dotted name
that is not a single word it reads the word in front and ends, and a backslash before a closing
quote takes the quote into the text. Main statement: without such backslashes, the program of a
normalized query is that of its forms, up to the first broken name.
-/

namespace RecordMapping

namespace Normalized

open JsonPath

namespace Form

def instructions : Form → Program
  | .dotted name => [.into, .name (String.ofList name)]
  | .dottedStar => [.into, .all]
  | .quoted _ name => [.bracket, .name (String.ofList name), .close]
  | .position _ digits _ => [.bracket, .number (.ofInt (digitsValue digits)), .close]
  | .star _ _ => [.bracket, .all, .close]

/-- Whether a form is a dotted name that is not read as a whole. -/
def Broken : Form → Prop
  | .dotted name => ¬ Unbroken name
  | _ => False

/-- Whether a form is a quoted name that seems to go on after its closing quote. -/
def Escaping : Form → Prop
  | .quoted _ name => name.getLast? = some '\\'
  | _ => False

end Form

variable {fuel : Nat} {rest : List Char} {program : Program} {left : List Token}

lemma readSteps?_dot {more : List Token}
    (h : readSteps? fuel (.dot :: more) = some (program, left)) :
    ∃ less step after others, readDotted? less more = some (step, after) ∧
      readSteps? less after = some (others, left) ∧ program = step ++ others := by
  cases fuel with
  | zero => cases h
  | succ less =>
    rw [readSteps?] at h
    obtain ⟨⟨step, after⟩, hstep, h⟩ := Option.bind_eq_some_iff.mp h
    obtain ⟨⟨others, ends⟩, hothers, h⟩ := Option.bind_eq_some_iff.mp h
    cases h
    exact ⟨less, step, after, others, hstep, hothers, rfl⟩

lemma readSteps?_bracket {more : List Token}
    (h : readSteps? fuel (.openBracket :: more) = some (program, left)) :
    ∃ less step after others, readBracket? less (skipBlanks more) = some (step, after) ∧
      readSteps? less after = some (others, left) ∧ program = step ++ others := by
  cases fuel with
  | zero => cases h
  | succ less =>
    rw [readSteps?] at h
    obtain ⟨⟨step, after⟩, hstep, h⟩ := Option.bind_eq_some_iff.mp h
    obtain ⟨⟨others, ends⟩, hothers, h⟩ := Option.bind_eq_some_iff.mp h
    cases h
    exact ⟨less, step, after, others, hstep, hothers, rfl⟩

lemma readSteps?_end {c : Char} (hc : isNameChar c)
    (h : readSteps? fuel (tokens (c :: rest)) = some (program, left)) : program = [] := by
  cases fuel with
  | zero => cases h
  | succ less =>
    unfold readSteps? at h
    split at h
    · rename_i htokens
      obtain rfl := eq_of_mark rfl htokens
      cases hc
    · rename_i htokens
      obtain rfl := eq_of_mark rfl htokens
      cases hc
    · cases h
      rfl

lemma readDotted?_word {c : Char} {step : Program} {after : List Token} (hstar : c ≠ '*')
    (hc : isNameChar c) (h : readDotted? fuel (tokens (c :: rest)) = some (step, after)) :
    ∃ word, tokens (c :: rest) = .word word :: after ∧
      step = [.into, .name (String.ofList word)] := by
  have hdot {more : List Token} : tokens (c :: rest) ≠ .dot :: more := by
    intro htokens
    obtain rfl := eq_of_mark rfl htokens
    cases hc
  cases fuel with
  | zero => cases h
  | succ less =>
    unfold readDotted? at h
    split at h
    · rename_i htokens
      exact absurd htokens hdot
    · rename_i htokens
      exact absurd htokens hdot
    · rename_i htokens
      exact absurd htokens hdot
    · rename_i htokens
      exact absurd (eq_of_mark rfl htokens) hstar
    · rename_i word more htokens
      cases h
      exact ⟨word, htokens, rfl⟩
    · rename_i htokens
      obtain rfl := eq_of_mark rfl htokens
      cases hc
    · cases h

/-- A dotted name is read as a whole if it is unbroken. Otherwise the word in front of it is read,
and nothing after it. -/
lemma readSteps?_dotted {name : List Char} (hvalid : (Form.dotted name).Valid)
    (hrest : GoesOn rest)
    (h : readSteps? fuel (tokens ((Form.dotted name).text ++ rest)) = some (program, left)) :
    (Unbroken name ∧ ∃ less others, readSteps? less (tokens rest) = some (others, left) ∧
      program = (Form.dotted name).instructions ++ others) ∨
    (¬ Unbroken name ∧ ∃ word, word ≠ name ∧ program = [.into, .name (String.ofList word)]) := by
  cases hvalid with
  | @dotted c name hstar hname =>
    have hdot : tokens ((Form.dotted (c :: name)).text ++ rest) =
        .dot :: tokens (c :: (name ++ rest)) := tokens_of_some rfl
    rw [hdot] at h
    obtain ⟨less, step, after, others, hstep, hothers, rfl⟩ := readSteps?_dot h
    obtain ⟨word, htokens, rfl⟩ := readDotted?_word hstar (hname c List.mem_cons_self) hstep
    obtain ⟨hwhole, rfl, rfl⟩ | ⟨hbroken, hne, d, hmem, more, rfl⟩ := tokens_name hrest htokens
    · exact .inl ⟨hwhole, less, others, hothers, rfl⟩
    · have hd : isNameChar d := hname d (List.mem_cons_of_mem c hmem)
      obtain rfl := readSteps?_end hd hothers
      exact .inr ⟨hbroken, word, hne, rfl⟩

lemma tokens_openBracket (rest : List Char) :
    tokens ('[' :: rest) = .openBracket :: tokens rest := tokens_of_some rfl

lemma tokens_closeBracket (rest : List Char) :
    tokens (']' :: rest) = .closeBracket :: tokens rest := tokens_of_some rfl

lemma skipBlanks_tokens_append {blanks : List Char} {c : Char} (hblanks : isAllBlank blanks)
    (hc : isBlank c = false) (rest : List Char) :
    skipBlanks (tokens (blanks ++ c :: rest)) = tokens (c :: rest) := by
  have hall : ∀ d ∈ blanks, isBlank d := List.all_eq_true.mp hblanks
  rw [skipBlanks_tokens, List.dropWhile_append, List.dropWhile_eq_nil_iff.mpr hall]
  simp [hc]

lemma closedBy?_tokens {blanks : List Char} {inside : Program} (hblanks : isAllBlank blanks)
    (rest : List Char) :
    closedBy? .closeBracket (some (inside, tokens (blanks ++ ']' :: rest))) =
      some (inside, tokens rest) := by
  have hskip := skipBlanks_tokens_append hblanks (c := ']') (by decide) rest
  simp [closedBy?, hskip, tokens_closeBracket, expect?]

lemma readSteps?_star {before after : List Char} (hbefore : isAllBlank before)
    (hafter : isAllBlank after)
    (h : readSteps? fuel (tokens ((Form.star before after).text ++ rest)) = some (program, left)) :
    ∃ less others, readSteps? less (tokens rest) = some (others, left) ∧
      program = (Form.star before after).instructions ++ others := by
  have htext : tokens ((Form.star before after).text ++ rest) =
      .openBracket :: tokens (before ++ '*' :: (after ++ ']' :: rest)) := by
    rw [← tokens_openBracket]
    simp [Form.text]
  have hstar : tokens ('*' :: (after ++ ']' :: rest)) =
      .star :: tokens (after ++ ']' :: rest) := tokens_of_some rfl
  rw [htext] at h
  obtain ⟨less, step, left', others, hstep, hothers, rfl⟩ := readSteps?_bracket h
  rw [skipBlanks_tokens_append hbefore (by decide), hstar] at hstep
  cases less with
  | zero => cases hstep
  | succ less =>
    simp only [readBracket?, closedBy?_tokens hafter, Option.map_some] at hstep
    cases hstep
    exact ⟨_, others, hothers, rfl⟩

/-- A quoted text ends at the first quote, unless a backslash stands before it. -/
lemma quotedText?_append {quote : Char} {name : List Char} (hname : quote ∉ name)
    (hescaping : name.getLast? ≠ some '\\') (after : List Char) :
    quotedText? quote (name ++ quote :: after) = some (name, after) := by
  obtain ⟨htake, hdrop⟩ := takeWhile_append_of_not_mem hname after
  simp only [quotedText?, htake, hdrop, if_neg hescaping]

lemma readSteps?_quoted {quote : Char} {name : List Char} (hquote : quote = '\'' ∨ quote = '"')
    (hname : quote ∉ name) (hescaping : name.getLast? ≠ some '\\')
    (h : readSteps? fuel (tokens ((Form.quoted quote name).text ++ rest)) = some (program, left)) :
    ∃ less others, readSteps? less (tokens rest) = some (others, left) ∧
      program = (Form.quoted quote name).instructions ++ others := by
  have htext : tokens ((Form.quoted quote name).text ++ rest) =
      .openBracket :: tokens (quote :: (name ++ quote :: (']' :: rest))) := by
    rw [← tokens_openBracket]
    simp [Form.text]
  have hquoted : tokens (quote :: (name ++ quote :: (']' :: rest))) =
      .quoted name :: .closeBracket :: tokens rest := by
    rw [← tokens_closeBracket]
    refine tokens_of_some ?_
    have hfrom (after : List Char) : tokenFrom? quote after =
        (quotedText? quote after).map fun found => (.quoted found.1, found.2) := by
      obtain rfl | rfl := hquote <;> rfl
    rw [hfrom, quotedText?_append hname hescaping, Option.map_some]
  rw [htext] at h
  obtain ⟨less, step, left', others, hstep, hothers, rfl⟩ := readSteps?_bracket h
  rw [hquoted] at hstep
  cases less with
  | zero => cases hstep
  | succ less =>
    have hskip : skipBlanks (.quoted name :: .closeBracket :: tokens rest) =
        .quoted name :: .closeBracket :: tokens rest := rfl
    rw [hskip] at hstep
    cases hstep
    exact ⟨_, others, hothers, rfl⟩

lemma not_isPunctuation_of_isDigit {c : Char} (h : c.isDigit) : isPunctuation c = false :=
  not_isPunctuation_of (by simp [punctuation, Char.isDigit]) h

lemma not_isBlank_of_isDigit {c : Char} (h : c.isDigit) : isBlank c = false :=
  Json.isBlank_of_isNumeralChar (by simp [isNumeralChar, h])

lemma continuesWord_of_isDigit {c : Char} (h : c.isDigit) : continuesWord c := by
  have hne : c ≠ '$' := by
    rintro rfl
    cases h
  simp [continuesWord, continuesRoot, not_isPunctuation_of_isDigit h, not_isBlank_of_isDigit h, hne]

lemma tokens_digits {digits : List Char} (hne : digits ≠ []) (hall : ∀ c ∈ digits, c.isDigit)
    {after : List Char} (hafter : ∀ c ∈ after.head?, continuesWord c = false) :
    tokens (digits ++ after) = .word digits :: tokens after := by
  refine tokens_word hne (fun c hc => continuesWord_of_isDigit (hall c hc)) ?_ hafter
  intro c hc
  have hdigit : c.isDigit := hall c (List.mem_of_mem_head? hc)
  rintro (rfl | rfl) <;> cases hdigit

lemma integer?_digits {digits : List Char} {n : Int} (hall : ∀ c ∈ digits, c.isDigit)
    (h : Numeral.integer? digits = some n) : n = digitsValue digits := by
  have hsign : splitSign digits = (false, digits) := by
    cases digits with
    | nil => rfl
    | cons c digits => exact splitSign_of_isDigit (hall c List.mem_cons_self) digits
  simp only [Numeral.integer?, hsign, Bool.false_eq_true, if_false, Option.ite_none_left_eq_some]
    at h
  exact (Option.some.inj h.2).symm

lemma readSteps?_position {before digits after : List Char} (hbefore : isAllBlank before)
    (hdigits : digits ≠ []) (hall : ∀ c ∈ digits, c.isDigit) (hafter : isAllBlank after)
    (h : readSteps? fuel (tokens ((Form.position before digits after).text ++ rest)) =
      some (program, left)) :
    ∃ less others, readSteps? less (tokens rest) = some (others, left) ∧
      program = (Form.position before digits after).instructions ++ others := by
  have htext : tokens ((Form.position before digits after).text ++ rest) =
      .openBracket :: tokens (before ++ (digits ++ (after ++ ']' :: rest))) := by
    rw [← tokens_openBracket]
    simp [Form.text]
  have hhead : ∀ c ∈ (after ++ ']' :: rest).head?, continuesWord c = false := by
    intro c hc
    cases after with
    | nil =>
      obtain rfl := Option.some.inj hc
      decide
    | cons d more =>
      obtain rfl := Option.some.inj hc
      have hblank : isBlank d := List.all_eq_true.mp hafter d List.mem_cons_self
      simp [continuesWord, continuesRoot, hblank]
  have hskip : skipBlanks (tokens (before ++ (digits ++ (after ++ ']' :: rest)))) =
      .word digits :: tokens (after ++ ']' :: rest) := by
    obtain ⟨c, more, rfl⟩ := List.exists_cons_of_ne_nil hdigits
    have hc : isBlank c = false := not_isBlank_of_isDigit (hall c List.mem_cons_self)
    rw [List.cons_append, skipBlanks_tokens_append hbefore hc, ← List.cons_append,
      tokens_digits hdigits hall hhead]
  have hclose : skipBlanks (tokens (after ++ ']' :: rest)) = .closeBracket :: tokens rest := by
    rw [skipBlanks_tokens_append hafter (by decide), tokens_closeBracket]
  rw [htext] at h
  obtain ⟨less, step, left', others, hstep, hothers, rfl⟩ := readSteps?_bracket h
  rw [hskip] at hstep
  cases less with
  | zero => cases hstep
  | succ less =>
    cases hinteger : Numeral.integer? digits with
    | none => simp [readBracket?, readSubscript?, hinteger, closedBy?] at hstep
    | some n =>
      obtain rfl := integer?_digits hall hinteger
      simp only [readBracket?, readSubscript?, hinteger, hclose, Option.bind_eq_bind,
        Option.bind_some] at hstep
      cases hstep
      exact ⟨_, others, hothers, rfl⟩

lemma readSteps?_form {form : Form} (hvalid : form.Valid) (hescaping : ¬ form.Escaping)
    (hbroken : ¬ form.Broken) (hrest : GoesOn rest)
    (h : readSteps? fuel (tokens (form.text ++ rest)) = some (program, left)) :
    ∃ less others, readSteps? less (tokens rest) = some (others, left) ∧
      program = form.instructions ++ others := by
  cases hvalid with
  | dotted hstar hname =>
    obtain ⟨-, hread⟩ | ⟨hnot, -⟩ := readSteps?_dotted (.dotted hstar hname) hrest h
    · exact hread
    · exact absurd hnot hbroken
  | dottedStar =>
    have hstar : tokens (Form.dottedStar.text ++ rest) = .dot :: .star :: tokens rest :=
      (tokens_of_some rfl).trans (congrArg _ (tokens_of_some rfl))
    rw [hstar] at h
    obtain ⟨less, step, after, others, hstep, hothers, rfl⟩ := readSteps?_dot h
    cases less with
    | zero => cases hstep
    | succ less =>
      cases hstep
      exact ⟨_, others, hothers, rfl⟩
  | quoted hquote hname => exact readSteps?_quoted hquote hname hescaping h
  | position hbefore hdigits hall hafter =>
    exact readSteps?_position hbefore hdigits hall hafter h
  | star hbefore hafter => exact readSteps?_star hbefore hafter h

lemma goesOn_forms (forms : List Form) : GoesOn (forms.flatMap Form.text) := by
  intro c hc
  cases forms with
  | nil => cases hc
  | cons form others =>
    cases form with
    | dotted name => exact .inl (Option.some.inj hc).symm
    | dottedStar => exact .inl (Option.some.inj hc).symm
    | quoted quote name => exact .inr (Option.some.inj hc).symm
    | position before digits after => exact .inr (Option.some.inj hc).symm
    | star before after => exact .inr (Option.some.inj hc).symm

/-- The program that is read of forms, of which none has such a backslash: that of all forms, or
that of the forms before a broken name and of a word in front of it. -/
inductive ReadAs (forms : List Form) : Program → Prop where
  | whole (h : ∀ form ∈ forms, ¬ form.Broken) : ReadAs forms (forms.flatMap Form.instructions)
  | part {before after : List Form} {name word : List Char}
      (split : forms = before ++ .dotted name :: after) (broken : ¬ Unbroken name)
      (other : word ≠ name) :
      ReadAs forms (before.flatMap Form.instructions ++ [.into, .name (String.ofList word)])

lemma ReadAs.cons {forms : List Form} {form : Form} (hbroken : ¬ form.Broken)
    (h : ReadAs forms program) : ReadAs (form :: forms) (form.instructions ++ program) := by
  cases h with
  | whole hall => exact .whole (List.forall_mem_cons.mpr ⟨hbroken, hall⟩)
  | @part before after name word split broken other =>
    rw [← List.append_assoc, ← List.flatMap_cons]
    exact .part (by rw [split, List.cons_append]) broken other

theorem readAs_of_readSteps? {forms : List Form} (hvalid : ∀ form ∈ forms, form.Valid)
    (hescaping : ∀ form ∈ forms, ¬ form.Escaping)
    (h : readSteps? fuel (tokens (forms.flatMap Form.text)) = some (program, left)) :
    ReadAs forms program := by
  induction forms generalizing fuel program with
  | nil =>
    cases fuel with
    | zero => cases h
    | succ less =>
      cases h
      exact .whole (by simp)
  | cons form others ih =>
    obtain ⟨hform, hothers⟩ := List.forall_mem_cons.mp hvalid
    obtain ⟨hplain, hplains⟩ := List.forall_mem_cons.mp hescaping
    rw [List.flatMap_cons] at h
    by_cases hbroken : form.Broken
    · cases form with
      | dotted name =>
        obtain ⟨hwhole, -⟩ | ⟨-, word, hne, rfl⟩ :=
          readSteps?_dotted hform (goesOn_forms others) h
        · exact absurd hwhole hbroken
        · exact @ReadAs.part _ [] others name word rfl hbroken hne
      | _ => exact hbroken.elim
    · obtain ⟨less, program, hmore, rfl⟩ :=
        readSteps?_form hform hplain hbroken (goesOn_forms others) h
      exact (ih hothers hplains hmore).cons hbroken

theorem readAs_of_read? {forms : List Form} {text : List Char} {plan : Plan}
    (hwrites : Writes forms text plan) (hescaping : ∀ form ∈ forms, ¬ form.Escaping)
    (h : JsonPath.read? text = some program) : ReadAs forms program := by
  obtain ⟨hvalid, rfl, -⟩ := hwrites
  have hrun : (forms.flatMap Form.text).takeWhile continuesRoot = [] :=
    (takeWhile_append_of_head ((goesOn_forms forms).not_continues '$') []).1
  have hroot : tokens ('$' :: forms.flatMap Form.text) =
      .root :: tokens (forms.flatMap Form.text) := by
    refine tokens_of_some ?_
    rw [tokenFrom?, if_pos rfl]
    simp only [hrun]
    rfl
  rw [JsonPath.read?, hroot] at h
  obtain ⟨⟨found, left⟩, hread, rfl⟩ := Option.map_eq_some_iff.mp h
  exact readAs_of_readSteps? hvalid hescaping hread

end Normalized

end RecordMapping

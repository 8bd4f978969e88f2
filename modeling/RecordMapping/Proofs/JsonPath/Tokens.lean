import Mathlib
import RecordMapping.JsonPath.Program
import RecordMapping.Proofs.Text.Runs

namespace RecordMapping

namespace JsonPath

/-- The character that a token stands for on its own. -/
def Token.mark? : Token → Option Char
  | .root => some '$'
  | .here => some '@'
  | .dot => some '.'
  | .openBracket => some '['
  | .closeBracket => some ']'
  | .openParen => some '('
  | .closeParen => some ')'
  | .star => some '*'
  | .question => some '?'
  | .comma => some ','
  | .colon => some ':'
  | _ => none

/-- Characters that continue a word with a given first one. -/
def continues (first : Char) : Char → Bool :=
  if first = '$' then continuesRoot else continuesWord

/-- The token that a character starts, and what is left of the text. -/
inductive Starting (c : Char) (rest : List Char) : Token → List Char → Prop where
  | mark {token : Token} (h : token.mark? = some c) : Starting c rest token rest
  | word : Starting c rest (.word (c :: rest.takeWhile (continues c)))
      (rest.dropWhile (continues c))
  | blank (h : isBlank c) : Starting c rest .blank (rest.dropWhile isBlank)
  | quoted {body after : List Char} (h : quotedText? c rest = some (body, after)) :
      Starting c rest (.quoted body) after
  | relation {relation : Relation} {after : List Char} (h : after.length ≤ rest.length) :
      Starting c rest (.relation relation) after

variable {c : Char} {text rest after : List Char} {token : Token}

lemma relationThen?_cases {second : Char} {long : Relation} {short : Option Relation}
    (h : relationThen? second long short text = some (token, after)) :
    ∃ relation, token = .relation relation ∧ after.length ≤ text.length := by
  unfold relationThen? at h
  split at h
  · cases h
  · split_ifs at h
    · cases h
      exact ⟨long, rfl, by simp⟩
    · obtain ⟨relation, -, h⟩ := Option.map_eq_some_iff.mp h
      cases h
      exact ⟨relation, rfl, le_rfl⟩

theorem starting_of_tokenFrom? (h : tokenFrom? c rest = some (token, after)) :
    Starting c rest token after := by
  have hrelation {second : Char} {long : Relation} {short : Option Relation}
      (h : relationThen? second long short rest = some (token, after)) :
      Starting c rest token after := by
    obtain ⟨relation, rfl, hlength⟩ := relationThen?_cases h
    exact .relation hlength
  unfold tokenFrom? at h
  dsimp only at h
  obtain ⟨rfl, h⟩ | ⟨hroot, h⟩ := ite_eq_iff.mp h
  · obtain ⟨-, h⟩ | ⟨-, h⟩ := ite_eq_iff.mp h
    · cases h
      exact .mark rfl
    · cases h
      exact .word
  iterate 10
    obtain ⟨rfl, h⟩ | ⟨-, h⟩ := ite_eq_iff.mp h
    · cases h
      exact .mark rfl
  obtain ⟨-, h⟩ | ⟨-, h⟩ := ite_eq_iff.mp h
  · obtain ⟨⟨body, left⟩, hbody, h⟩ := Option.map_eq_some_iff.mp h
    cases h
    exact .quoted hbody
  iterate 6
    obtain ⟨-, h⟩ | ⟨-, h⟩ := ite_eq_iff.mp h
    · exact hrelation h
  obtain ⟨hblank, h⟩ | ⟨-, h⟩ := ite_eq_iff.mp h
  · cases h
    exact .blank hblank
  · cases h
    have hcontinues : continues c = continuesWord := if_neg hroot
    rw [← hcontinues]
    exact .word

lemma length_quotedText? {quote : Char} {body : List Char}
    (h : quotedText? quote text = some (body, after)) : after.length ≤ text.length := by
  have hfirst := List.length_dropWhile_le (· ≠ quote) text
  unfold quotedText? at h
  dsimp only at h
  split at h
  · cases h
  · rename_i rest hrest
    rw [hrest, List.length_cons] at hfirst
    split_ifs at h
    · have hsecond := List.length_dropWhile_le (· ≠ quote) rest
      split at h
      · cases h
      · rename_i more hmore
        cases h
        rw [hmore, List.length_cons] at hsecond
        omega
    · cases h
      omega

lemma Starting.length_le (h : Starting c rest token after) : after.length ≤ rest.length := by
  cases h with
  | mark h => exact le_rfl
  | word => exact List.length_dropWhile_le _ _
  | blank h => exact List.length_dropWhile_le _ _
  | quoted h => exact length_quotedText? h
  | relation h => exact h

lemma tokensUpTo_eq {fuel more : Nat} (hfuel : text.length ≤ fuel) (hmore : text.length ≤ more) :
    tokensUpTo fuel text = tokensUpTo more text := by
  induction fuel generalizing more text with
  | zero =>
    obtain rfl := List.length_eq_zero_iff.mp (Nat.le_zero.mp hfuel)
    cases more <;> rfl
  | succ fuel ih =>
    cases text with
    | nil => cases more <;> rfl
    | cons c rest =>
      rw [List.length_cons] at hfuel hmore
      obtain ⟨more, rfl⟩ : ∃ less, more = less + 1 := ⟨more - 1, by omega⟩
      cases htoken : tokenFrom? c rest with
      | none => simp only [tokensUpTo, htoken]
      | some found =>
        obtain ⟨token, after⟩ := found
        have hlength := (starting_of_tokenFrom? htoken).length_le
        have hrest : tokensUpTo fuel after = tokensUpTo more after := ih (by omega) (by omega)
        simp only [tokensUpTo, htoken, hrest]

lemma tokens_of_some (h : tokenFrom? c rest = some (token, after)) :
    tokens (c :: rest) = token :: tokens after := by
  have hlength := (starting_of_tokenFrom? h).length_le
  simp only [tokens, List.length_cons, tokensUpTo, h]
  rw [tokensUpTo_eq hlength le_rfl]

lemma tokens_of_none (h : tokenFrom? c rest = none) : tokens (c :: rest) = [] := by
  simp only [tokens, List.length_cons, tokensUpTo, h]

lemma exists_starting_of_tokens {more : List Token} (h : tokens (c :: rest) = token :: more) :
    ∃ after, Starting c rest token after ∧ more = tokens after := by
  cases htoken : tokenFrom? c rest with
  | none =>
    rw [tokens_of_none htoken] at h
    cases h
  | some found =>
    obtain ⟨first, after⟩ := found
    rw [tokens_of_some htoken] at h
    cases h
    exact ⟨after, starting_of_tokenFrom? htoken, rfl⟩

lemma eq_of_mark {d : Char} {more : List Token} (hmark : token.mark? = some d)
    (h : tokens (c :: rest) = token :: more) : c = d := by
  obtain ⟨after, hstarting, -⟩ := exists_starting_of_tokens h
  cases hstarting with
  | mark h => exact Option.some.inj (h.symm.trans hmark)
  | word => cases hmark
  | blank h => cases hmark
  | quoted h => cases hmark
  | relation h => cases hmark

lemma tokenFrom?_of_plain (hpunctuation : isPunctuation c = false) (hroot : c ≠ '$')
    (hquote : ¬ (c = '\'' ∨ c = '"')) (rest : List Char) :
    tokenFrom? c rest =
      if isBlank c then some (.blank, rest.dropWhile isBlank)
      else some (.word (c :: rest.takeWhile continuesWord), rest.dropWhile continuesWord) := by
  have hne (d : Char) (hd : isPunctuation d) : c ≠ d := by
    rintro rfl
    simp [hpunctuation] at hd
  rw [tokenFrom?, if_neg hroot, if_neg (hne '.' rfl), if_neg (hne '*' rfl), if_neg (hne '[' rfl),
    if_neg (hne ']' rfl), if_neg (hne '(' rfl), if_neg (hne ')' rfl), if_neg (hne '@' rfl),
    if_neg (hne '?' rfl), if_neg (hne ',' rfl), if_neg (hne ':' rfl), if_neg hquote,
    if_neg (hne '=' rfl), if_neg (hne '!' rfl), if_neg (hne '<' rfl), if_neg (hne '>' rfl),
    if_neg (hne '&' rfl), if_neg (hne '|' rfl)]

/-- The characters that are tokens of their own or start one. -/
def punctuation : List Char :=
  ['.', '*', '[', ']', '(', ')', '@', '?', ',', ':', '<', '>', '=', '&', '|', '!']

lemma not_isPunctuation_of {p : Char → Bool} (hmarks : ∀ d ∈ punctuation, p d = false) (h : p c) :
    isPunctuation c = false := by
  have hmem : c ∉ punctuation := by
    intro hmem
    simp [hmarks c hmem] at h
  simpa [isPunctuation, punctuation] using hmem

lemma not_isPunctuation_of_isBlank (h : isBlank c) : isPunctuation c = false :=
  not_isPunctuation_of (by simp [punctuation, isBlank]) h

lemma tokens_blank (h : isBlank c) (rest : List Char) :
    tokens (c :: rest) = .blank :: tokens (rest.dropWhile isBlank) := by
  have hne (d : Char) (hd : isBlank d = false) : c ≠ d := by
    rintro rfl
    simp [h] at hd
  have hquote : ¬ (c = '\'' ∨ c = '"') := by
    rintro (rfl | rfl) <;> cases h
  refine tokens_of_some ?_
  rw [tokenFrom?_of_plain (not_isPunctuation_of_isBlank h) (hne '$' rfl) hquote, if_pos h]

theorem skipBlanks_tokens (text : List Char) :
    skipBlanks (tokens text) = tokens (text.dropWhile isBlank) := by
  have hfixed (text : List Char) (h : ∀ c ∈ text.head?, isBlank c = false) :
      skipBlanks (tokens text) = tokens text := by
    cases text with
    | nil => rfl
    | cons c rest =>
      cases htokens : tokens (c :: rest) with
      | nil => rfl
      | cons token more =>
        obtain ⟨after, hstarting, -⟩ := exists_starting_of_tokens htokens
        have hne : token ≠ .blank := by
          rintro rfl
          cases hstarting with
          | mark hmark => cases hmark
          | blank hblank => simp [h c rfl] at hblank
        simp [skipBlanks, hne]
  cases text with
  | nil => rfl
  | cons c rest =>
    cases hblank : isBlank c with
    | false => simpa [hblank] using hfixed (c :: rest) (by simpa using hblank)
    | true =>
      have hhead : ∀ d ∈ (rest.dropWhile isBlank).head?, isBlank d = false := by
        intro d hd
        have hnot := List.head?_dropWhile_not isBlank rest
        simpa [Option.mem_def.mp hd] using hnot
      rw [tokens_blank hblank, List.dropWhile_cons_of_pos hblank]
      exact hfixed _ hhead

/-- Whether a text is empty or goes on with a step of a normalized query. -/
def GoesOn (rest : List Char) : Prop := ∀ c ∈ rest.head?, c = '.' ∨ c = '['

lemma GoesOn.not_continues (h : GoesOn rest) (first : Char) :
    ∀ c ∈ rest.head?, continues first c = false := by
  intro c hc
  unfold continues
  obtain rfl | rfl := h c hc <;> split <;> decide

lemma tokens_word {word : List Char} (hne : word ≠ []) (hall : ∀ d ∈ word, continuesWord d)
    (hquote : ∀ d ∈ word.head?, ¬ (d = '\'' ∨ d = '"'))
    (hafter : ∀ d ∈ after.head?, continuesWord d = false) :
    tokens (word ++ after) = .word word :: tokens after := by
  obtain ⟨c, more, rfl⟩ := List.exists_cons_of_ne_nil hne
  obtain ⟨hc, hmore⟩ := List.forall_mem_cons.mp hall
  simp only [continuesWord, continuesRoot, Bool.and_eq_true, Bool.not_eq_true', bne_iff_ne] at hc
  obtain ⟨⟨hpunctuation, hblank⟩, hroot⟩ := hc
  obtain ⟨htake, hdrop⟩ := takeWhile_append_of_run hmore hafter
  rw [List.cons_append]
  refine tokens_of_some ?_
  rw [tokenFrom?_of_plain hpunctuation hroot (hquote c rfl), hblank, htake, hdrop]
  rfl

/-- Whether all characters of a name continue the word that its first one starts. -/
def Unbroken : List Char → Prop
  | [] => True
  | c :: rest => ∀ d ∈ rest, continues c d

instance : DecidablePred Unbroken := fun name => by
  cases name with
  | nil => exact .isTrue trivial
  | cons c rest => exact inferInstanceAs (Decidable (∀ d ∈ rest, continues c d))

/-- The word that a name starts in front of a step is the whole name if it is unbroken, and leaves a
character of the name otherwise. -/
lemma tokens_name {name word : List Char} {more : List Token} (hrest : GoesOn rest)
    (h : tokens (c :: (name ++ rest)) = .word word :: more) :
    (Unbroken (c :: name) ∧ word = c :: name ∧ more = tokens rest) ∨
    (¬ Unbroken (c :: name) ∧ word ≠ c :: name ∧
      ∃ d ∈ name, ∃ left, more = tokens (d :: left)) := by
  obtain ⟨after, hstarting, rfl⟩ := exists_starting_of_tokens h
  obtain ⟨htake, hdrop⟩ := takeWhile_append_of_head (hrest.not_continues c) name
  cases hstarting with
  | mark hmark => cases hmark
  | word =>
    rw [htake, hdrop]
    have hsplit := List.takeWhile_append_dropWhile (p := continues c) (l := name)
    cases hleft : name.dropWhile (continues c) with
    | nil =>
      have hall : ∀ d ∈ name, continues c d := List.dropWhile_eq_nil_iff.mp hleft
      rw [hleft, List.append_nil] at hsplit
      exact .inl ⟨hall, by rw [hsplit], rfl⟩
    | cons d left =>
      have hmem : d ∈ name := (List.dropWhile_sublist _).subset (hleft ▸ List.mem_cons_self)
      have hbroken : ¬ ∀ e ∈ name, continues c e := by
        rw [← List.dropWhile_eq_nil_iff, hleft]
        simp
      refine .inr ⟨hbroken, fun hsame => ?_, d, hmem, left ++ rest, rfl⟩
      exact hbroken (List.takeWhile_eq_self_iff.mp (List.cons.inj hsame).2)

end JsonPath

end RecordMapping

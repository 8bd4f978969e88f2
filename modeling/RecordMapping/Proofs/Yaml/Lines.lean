import Mathlib
import RecordMapping.Yaml.Token

/-!
# Plain scalars on a line

A text that stands in a line, with further lines behind it, is read as a plain scalar up to the end
of the line at most when the next line is not indented. Main statements: the scalar is shorter than
the text or it is the text, and it is the text if and only if nothing in the text ends a plain
scalar or is folded.
-/

namespace RecordMapping

namespace Yaml

/-- Whether a text of a line goes on as a plain scalar to its end: no break, no comment behind a
blank, no colon that ends a key, and no blank at the end. The flag tells whether a blank comes
before the text. -/
def goesPlain (afterBlank : Bool) : List Char → Bool
  | [] => !afterBlank
  | c :: rest =>
    isAllowed c && !isBreak c && !(afterBlank && c == '#') && !(c == ':' && endsWord rest) &&
      goesPlain (isGap c) rest

/-- Whether a text starts as a plain scalar: with no indicator, or with one of those that a word may
start with. -/
def beginsPlain : List Char → Bool
  | [] => false
  | c :: rest =>
    (!Scanner.isIndicator c && !isGap c) || (['-', '?', ':'].contains c && !endsWord rest)

/-- Whether a text can be written on a line as it is and be read as the same text: it is empty, or
begins and goes on as a plain scalar. -/
def isPlainLine (text : List Char) : Bool :=
  text.isEmpty || (beginsPlain text && goesPlain false text)

/-- Whether a line starts with a letter or a digit. -/
def StartsWord (text : List Char) : Prop := ∃ c rest, text = c :: rest ∧ c.isAlphanum

variable {m tail word : List Char} {c : Char} {cursor : Cursor}

lemma toNat_of_isAlphanum (h : c.isAlphanum) :
    65 ≤ c.toNat ∧ c.toNat ≤ 90 ∨ 97 ≤ c.toNat ∧ c.toNat ≤ 122 ∨ 48 ≤ c.toNat ∧ c.toNat ≤ 57 := by
  simp only [Char.isAlphanum, Char.isAlpha, Char.isUpper, Char.isLower, Char.isDigit,
    Bool.or_eq_true, Bool.and_eq_true, decide_eq_true_eq, UInt32.le_iff_toNat_le, ge_iff_le] at h
  change ((65 ≤ c.toNat ∧ c.toNat ≤ 90) ∨ 97 ≤ c.toNat ∧ c.toNat ≤ 122) ∨
    48 ≤ c.toNat ∧ c.toNat ≤ 57 at h
  omega

lemma ordinary_of_isAlphanum (h : c.isAlphanum) :
    isGap c = false ∧ isBreak c = false ∧ isOrderMark c = false ∧
      Scanner.isIndicator c = false := by
  have hrange := toNat_of_isAlphanum h
  have hne {d : Char} (hd : d.isAlphanum = false) : c ≠ d := by
    rintro rfl
    simp [hd] at h
  refine ⟨?_, ?_, ?_, ?_⟩
  · simp [isGap, hne (d := ' ') (by decide), hne (d := '\t') (by decide)]
  · simp only [isBreak, Bool.or_eq_false_iff, beq_eq_false_iff_ne]
    refine ⟨⟨⟨⟨hne (by decide), hne (by decide)⟩, ?_⟩, ?_⟩, ?_⟩ <;> omega
  · simp only [isOrderMark, beq_eq_false_iff_ne]
    omega
  · rw [Scanner.isIndicator, ← Bool.not_eq_true, List.contains_iff_mem]
    intro hmem
    exact absurd h (by fin_cases hmem <;> decide)

lemma endsWord_append_newline (text tail : List Char) :
    endsWord (text ++ '\n' :: tail) = endsWord text := by
  cases text <;> rfl

lemma takeBreak?_of_not_isBreak {rest : List Char} (h : isBreak c = false) :
    takeBreak? (c :: rest) = none := by
  simp only [isBreak, Bool.or_eq_false_iff, beq_eq_false_iff_ne] at h
  unfold takeBreak?
  split
  · rename_i heq
    cases heq
    exact absurd rfl h.1.1.1.2
  · rename_i heq
    cases heq
    simp [isBreak, h]
  · rfl

lemma takeBreak?_of_isBreak {rest : List Char} (h : isBreak c)
    (hpair : ¬(c = '\r' ∧ rest.head? = some '\n')) :
    ∃ lineBreak, isBreak lineBreak ∧ takeBreak? (c :: rest) = some (lineBreak, rest) := by
  unfold takeBreak?
  split
  · rename_i heq
    cases heq
    exact absurd ⟨rfl, rfl⟩ hpair
  · rename_i heq
    cases heq
    by_cases hcode : c.toNat == 0x2028 || c.toNat == 0x2029
    · exact ⟨c, h, if_pos hcode⟩
    · exact ⟨'\n', rfl, by rw [if_neg hcode, if_pos h]⟩
  · rename_i heq
    cases heq

/-- What may be left of a text of a line and the lines behind it after a line break in it. -/
def Behind (tail m after : List Char) : Prop :=
  after = tail ∨ ∃ less, less <:+ m ∧ less.length < m.length ∧ after = less ++ '\n' :: tail

lemma takeBreak?_within (hbreak : (m ++ '\n' :: tail).head?.any isBreak) :
    ∃ lineBreak after, isBreak lineBreak ∧
      takeBreak? (m ++ '\n' :: tail) = some (lineBreak, after) ∧ Behind tail m after := by
  cases m with
  | nil => exact ⟨'\n', tail, rfl, rfl, .inl rfl⟩
  | cons c rest =>
    have hc : isBreak c := hbreak
    by_cases hpair : c = '\r' ∧ (rest ++ '\n' :: tail).head? = some '\n'
    · obtain ⟨rfl, hhead⟩ := hpair
      cases rest with
      | nil => exact ⟨'\n', tail, rfl, rfl, .inl rfl⟩
      | cons d others =>
        obtain rfl : d = '\n' := Option.some.inj hhead
        exact ⟨'\n', _, rfl, rfl, .inr ⟨others, List.suffix_cons_iff.mpr
          (.inr (List.suffix_cons _ _)), by simp, rfl⟩⟩
    · obtain ⟨lineBreak, hline, htake⟩ := takeBreak?_of_isBreak hc hpair
      exact ⟨lineBreak, _, hline, htake, .inr ⟨rest, List.suffix_cons _ _, by simp, rfl⟩⟩

lemma skipBreak_of_takeBreak? {lineBreak : Char} {after : List Char}
    (h : takeBreak? cursor.rest = some (lineBreak, after)) :
    cursor.skipBreak.rest = after ∧ cursor.skipBreak.column = 0 := by
  unfold Cursor.skipBreak
  rw [h]
  exact ⟨rfl, rfl⟩

/-- What a gap in a line leaves of its text: it is still in the line, or has broken it and then is
shorter than what it took by the blanks of the new line, or is behind it. -/
inductive Leaves (tail m : List Char) (gap : Gap) : Prop where
  | inLine (rest : List Char) (breaks : gap.breaks = []) (blanks : ∀ c ∈ gap.blanks, isGap c)
      (split : m = gap.blanks ++ rest) (place : gap.cursor.rest = rest ++ '\n' :: tail) :
      Leaves tail m gap
  | broken (rest : List Char) (breaks : gap.breaks ≠ [])
      (place : gap.cursor.rest = rest ++ '\n' :: tail)
      (shorter : gap.blanks.length + gap.breaks.length + gap.cursor.column + rest.length ≤
        m.length) :
      Leaves tail m gap
  | behind (breaks : gap.breaks ≠ []) (place : gap.cursor.rest = tail)
      (column : gap.cursor.column = 0) : Leaves tail m gap

lemma StartsWord.takeBreak? (h : StartsWord tail) : takeBreak? tail = none := by
  obtain ⟨c, rest, rfl, hc⟩ := h
  exact takeBreak?_of_not_isBreak (ordinary_of_isAlphanum hc).2.1

lemma StartsWord.not_isGap (h : StartsWord tail) : ∀ c ∈ tail.head?, isGap c = false := by
  obtain ⟨c, rest, rfl, hc⟩ := h
  intro d hd
  obtain rfl := Option.some.inj hd
  exact (ordinary_of_isAlphanum hc).1

lemma Leaves.skip {gap : Gap} {rest : List Char} (htail : StartsWord tail)
    (h : Leaves tail m gap) (hrest : gap.cursor.rest = c :: rest) (hc : isGap c) :
    (gap.breaks = [] →
      Leaves tail m { gap with blanks := gap.blanks ++ [c], cursor := gap.cursor.skip 1 }) ∧
    (gap.breaks ≠ [] → Leaves tail m { gap with cursor := gap.cursor.skip 1 }) := by
  have hnewline : isGap '\n' = false := rfl
  cases h with
  | inLine left breaks blanks split place =>
    refine ⟨fun _ => ?_, fun hbreaks => absurd breaks hbreaks⟩
    cases left with
    | nil =>
      cases hrest.symm.trans place
      simp [hnewline] at hc
    | cons d left =>
      cases hrest.symm.trans place
      refine .inLine left breaks ?_ ?_ ?_
      · simpa [or_imp, forall_and, hc] using blanks
      · simp [split]
      · simp [Cursor.skip, place]
  | broken left breaks place shorter =>
    refine ⟨fun hbreaks => absurd hbreaks breaks, fun _ => ?_⟩
    cases left with
    | nil =>
      cases hrest.symm.trans place
      simp [hnewline] at hc
    | cons d left =>
      cases hrest.symm.trans place
      refine .broken left breaks ?_ ?_
      · simp [Cursor.skip, place]
      · simp only [Cursor.skip, List.length_cons] at shorter ⊢
        omega
  | behind breaks place column =>
    have hgap := htail.not_isGap c (by rw [← place, hrest]; rfl)
    simp [hgap] at hc

lemma Leaves.skipBreak {gap : Gap} {lineBreak : Char} {after : List Char}
    (htail : StartsWord tail) (h : Leaves tail m gap)
    (htake : takeBreak? gap.cursor.rest = some (lineBreak, after)) :
    Leaves tail m
      { gap with breaks := gap.breaks ++ [lineBreak], cursor := gap.cursor.skipBreak } := by
  obtain ⟨hrest, hcolumn⟩ := skipBreak_of_takeBreak? htake
  have hbreaks : gap.breaks ++ [lineBreak] ≠ [] := by simp
  have hbehind {left : List Char} (place : gap.cursor.rest = left ++ '\n' :: tail) :
      Behind tail left after := by
    have hbreak : (left ++ '\n' :: tail).head?.any isBreak := by
      by_contra hno
      rw [place] at htake
      cases hleft : left ++ '\n' :: tail with
      | nil => simp at hleft
      | cons d others =>
        rw [hleft] at htake hno
        rw [takeBreak?_of_not_isBreak (by simpa using hno)] at htake
        cases htake
    obtain ⟨found, end', -, hfound, hbehind⟩ := takeBreak?_within hbreak
    rw [place, hfound] at htake
    cases htake
    exact hbehind
  cases h with
  | inLine left breaks blanks split place =>
    obtain rfl | ⟨less, -, hless, rfl⟩ := hbehind place
    · exact .behind hbreaks hrest hcolumn
    · refine .broken _ hbreaks hrest ?_
      simp only [hcolumn, breaks, split, List.nil_append, List.length_singleton, List.length_append]
      omega
  | broken left breaks place shorter =>
    obtain rfl | ⟨less, -, hless, rfl⟩ := hbehind place
    · exact .behind hbreaks hrest hcolumn
    · refine .broken _ hbreaks hrest ?_
      simp only [hcolumn, List.length_append, List.length_singleton]
      omega
  | behind breaks place column =>
    rw [place, htail.takeBreak?] at htake
    cases htake

lemma Leaves.take {tabLimit fuel : ℕ} {gap found : Gap} (htail : StartsWord tail)
    (h : Leaves tail m gap) (hfound : Gap.take? tabLimit fuel gap = some found) :
    Leaves tail m found := by
  induction fuel generalizing gap with
  | zero =>
    obtain rfl := Option.some.inj hfound
    exact h
  | succ fuel ih =>
    unfold Gap.take? at hfound
    split at hfound
    · obtain rfl := Option.some.inj hfound
      exact h
    · rename_i c rest hrest
      split at hfound
      · rename_i hc
        obtain ⟨hline, hbroken⟩ := h.skip htail hrest hc
        split at hfound
        · rename_i hbreaks
          exact ih (hline (List.isEmpty_iff.mp hbreaks)) hfound
        · rename_i hbreaks
          split at hfound
          · cases hfound
          · exact ih (hbroken (by simpa using hbreaks)) hfound
      · split at hfound
        · rename_i lineBreak after htake
          exact ih (h.skipBreak htail htake) hfound
        · obtain rfl := Option.some.inj hfound
          exact h

lemma leaves_of_gapAt? {tabLimit : ℕ} {gap : Gap} (htail : StartsWord tail)
    (hrest : cursor.rest = m ++ '\n' :: tail) (h : gapAt? tabLimit cursor = some gap) :
    Leaves tail m gap :=
  Leaves.take htail (.inLine m rfl (by simp) rfl hrest) h

lemma Gap.length_fold_le (gap : Gap) : gap.fold.length ≤ gap.blanks.length + gap.breaks.length := by
  unfold Gap.fold
  split <;> simp_all
  omega

lemma plainWord?_within (h : plainWord? false (m ++ '\n' :: tail) = some word) :
    ∃ rest, m = word ++ rest ∧ ∀ afterBlank : Bool, m.all isAllowed → word ≠ [] →
      (afterBlank → m.head? ≠ some '#') → goesPlain false rest → goesPlain afterBlank m := by
  induction m generalizing word with
  | nil =>
    cases h
    exact ⟨[], rfl, fun _ _ hword => absurd rfl hword⟩
  | cons c m ih =>
    simp only [List.cons_append, plainWord?, Bool.false_and, Bool.false_eq_true, if_false,
      endsWord_append_newline] at h
    split at h
    · cases h
      exact ⟨c :: m, rfl, fun _ _ hword => absurd rfl hword⟩
    · rename_i hblank
      split at h
      · cases h
        exact ⟨c :: m, rfl, fun _ _ hword => absurd rfl hword⟩
      · rename_i hcolon
        obtain ⟨later, hlater, rfl⟩ := Option.map_eq_some_iff.mp h
        obtain ⟨rest, rfl, hgoes⟩ := ih hlater
        refine ⟨rest, rfl, fun afterBlank hallowed _ hcomment hrest => ?_⟩
        simp only [Bool.or_eq_true, not_or, Bool.not_eq_true] at hblank
        rw [List.all_cons, Bool.and_eq_true] at hallowed
        have hgo : goesPlain false (later ++ rest) := by
          by_cases hempty : later = []
          · simpa [hempty] using hrest
          · exact hgoes false hallowed.2 hempty (by simp) hrest
        simp only [goesPlain, hblank.1, hblank.2, hallowed.1, hgo, Bool.not_false, Bool.true_and,
          Bool.and_true, Bool.and_eq_true, Bool.not_eq_true', Bool.and_eq_false_iff]
        constructor
        · by_cases hflag : afterBlank
          · right
            simpa using hcomment hflag
          · left
            simpa using hflag
        · rw [Bool.and_eq_true, not_and_or] at hcolon
          simpa using hcolon

/-- Whether a text went on by less than what was left of a line, or by all of it, which then goes on
as a plain scalar. -/
def WentOn (text m whole : List Char) : Prop :=
  whole.length < text.length + m.length ∨
    whole = text ++ m ∧ (m.all isAllowed → goesPlain false m)

/-- What a gap leaves to go on with: the line goes on with all that was left of it, or with less. -/
def Resumes (tail m : List Char) (gap : Gap) : Prop :=
  ∃ rest, gap.cursor.rest = rest ++ '\n' :: tail ∧
    (gap.breaks = [] ∧ (∀ c ∈ gap.blanks, isGap c) ∧ m = gap.blanks ++ rest ∨
      gap.fold.length + rest.length < m.length)

lemma wentOn_self (text m : List Char) : WentOn text m text := by
  cases m with
  | nil => exact .inr ⟨(List.append_nil text).symm, fun _ => rfl⟩
  | cons c m => exact .inl (by simp)

/-- What is indented goes on in the line, or in a later one, which has a blank that folds away. -/
lemma Leaves.resumes {gap : Gap} (h : Leaves tail m gap)
    (hcolumn : 1 ≤ gap.cursor.column ∨ gap.breaks = []) : Resumes tail m gap := by
  have hfold := gap.length_fold_le
  cases h with
  | inLine rest breaks blanks split place => exact ⟨_, place, .inl ⟨breaks, blanks, split⟩⟩
  | broken rest breaks place shorter =>
    have hone := hcolumn.resolve_right breaks
    exact ⟨_, place, .inr (by omega)⟩
  | behind breaks place column =>
    have hone := hcolumn.resolve_right breaks
    omega

lemma goesPlain_gap (hc : isGap c) (afterBlank : Bool) (rest : List Char) :
    goesPlain afterBlank (c :: rest) = goesPlain true rest := by
  have hne : isAllowed c && !isBreak c && !(afterBlank && c == '#') &&
      !(c == ':' && endsWord rest) := by
    simp only [isGap, Bool.or_eq_true, beq_iff_eq] at hc
    obtain rfl | rfl := hc <;> simp <;> decide
  rw [goesPlain, hne, hc, Bool.true_and]

lemma goesPlain_blanks {blanks : List Char} (hblanks : ∀ c ∈ blanks, isGap c) (afterBlank : Bool)
    (rest : List Char) :
    goesPlain afterBlank (blanks ++ rest) = goesPlain (afterBlank || !blanks.isEmpty) rest := by
  induction blanks generalizing afterBlank with
  | nil => simp
  | cons c blanks ih =>
    rw [List.cons_append, goesPlain_gap (hblanks c List.mem_cons_self),
      ih fun d hd => hblanks d (List.mem_cons_of_mem _ hd)]
    simp

variable {text whole : List Char} {gap : Gap} {indent fuel : ℕ}

lemma WentOn.of_word {rest left : List Char}
    (hgap : gap.breaks = [] ∧ (∀ c ∈ gap.blanks, isGap c) ∧ m = gap.blanks ++ rest ∨
      gap.fold.length + rest.length < m.length)
    (hrest : rest = word ++ left)
    (hword : ∀ afterBlank : Bool, rest.all isAllowed → goesPlain false left →
      goesPlain afterBlank rest)
    (h : WentOn (text ++ gap.fold ++ word) left whole) : WentOn text m whole := by
  have hlength := congrArg List.length hrest
  rw [List.length_append] at hlength
  obtain ⟨hbreaks, hblanks, rfl⟩ | hless := hgap
  · have hfold : gap.fold = gap.blanks := by rw [Gap.fold, hbreaks]
    rw [hfold] at h
    obtain hshort | ⟨rfl, hgoes⟩ := h
    · left
      simp only [List.length_append] at hshort ⊢
      omega
    · right
      refine ⟨by simp [hrest], fun hallowed => ?_⟩
      rw [List.all_append, Bool.and_eq_true] at hallowed
      rw [goesPlain_blanks hblanks]
      apply hword _ hallowed.2
      apply hgoes
      rw [hrest, List.all_append, Bool.and_eq_true] at hallowed
      exact hallowed.2.2
  · left
    obtain hshort | ⟨rfl, -⟩ := h
    · simp only [List.length_append] at hshort
      omega
    · simp only [List.length_append]
      omega

lemma plainFrom?_within {after : Cursor} {broken : Bool} (hindent : 1 ≤ indent)
    (htail : StartsWord tail) (hready : Resumes tail m gap)
    (h : plainFrom? false indent fuel text gap = some (whole, after, broken)) :
    WentOn text m whole := by
  induction fuel generalizing text gap m with
  | zero =>
    cases h
    exact wentOn_self _ m
  | succ fuel ih =>
    obtain ⟨rest, hrest, hgap⟩ := hready
    simp only [plainFrom?] at h
    split at h
    · cases h
      exact wentOn_self _ m
    · rename_i hstart
      split at h
      · cases h
      · cases h
        exact wentOn_self _ m
      · rename_i word hne hword
        rw [hrest] at hword
        obtain ⟨left, rfl, hgoes⟩ := plainWord?_within hword
        have hcomment : (word ++ left).head? ≠ some '#' := by
          intro hhead
          apply hstart
          rw [Bool.or_eq_true]
          right
          rw [Cursor.sees, hrest, List.head?_append, hhead]
          rfl
        refine WentOn.of_word hgap rfl (fun afterBlank hallowed hleft =>
          hgoes afterBlank hallowed hne (fun _ => hcomment) hleft) ?_
        have hplace : (gap.cursor.skip word.length).rest = left ++ '\n' :: tail := by
          simp [Cursor.skip, hrest]
        split at h
        · cases h
          exact wentOn_self _ _
        · split at h
          · cases h
          · rename_i next hnext
            have hleaves := leaves_of_gapAt? htail hplace hnext
            split at h
            · cases h
              exact wentOn_self _ _
            · rename_i hcolumn
              apply ih (hleaves.resumes (.inl ?_)) h
              simp only [Bool.not_false, Bool.true_and, decide_eq_true_eq, not_lt] at hcolumn
              omega

/-- A plain scalar at the text of a line is shorter than the text, or it is the text, which then
goes on as a plain scalar to its end. -/
theorem plain?_within {after : Cursor} {broken : Bool} (hindent : 1 ≤ indent)
    (htail : StartsWord tail) (hrest : cursor.rest = m ++ '\n' :: tail)
    (h : plain? false indent cursor = some (whole, after, broken)) :
    whole.length < m.length ∨ whole = m ∧ (m.all isAllowed → goesPlain false m) := by
  have hready : Resumes tail m ⟨[], [], cursor⟩ := ⟨m, hrest, .inl ⟨rfl, by simp, rfl⟩⟩
  simpa [WentOn] using plainFrom?_within hindent htail hready h

lemma Cursor.skip_skip (cursor : Cursor) (a b : ℕ) :
    (cursor.skip a).skip b = cursor.skip (a + b) := by
  simp [Cursor.skip, Nat.add_assoc]

lemma goesPlain_cons {afterBlank : Bool} (h : goesPlain afterBlank (c :: m)) :
    isAllowed c ∧ isBreak c = false ∧ ¬(c = ':' ∧ endsWord m) ∧ (afterBlank → c ≠ '#') ∧
      goesPlain (isGap c) m := by
  simp only [goesPlain, Bool.and_eq_true, Bool.not_eq_true', Bool.and_eq_false_iff,
    beq_eq_false_iff_ne] at h
  obtain ⟨⟨⟨⟨hallowed, hbreak⟩, hcomment⟩, hcolon⟩, hrest⟩ := h
  refine ⟨hallowed, hbreak, ?_, fun hflag => ?_, hrest⟩
  · rintro ⟨rfl, hends⟩
    simp [hends] at hcolon
  · simpa [hflag] using hcomment

lemma plainWord?_of_goesPlain {afterBlank : Bool} (h : goesPlain afterBlank m) (tail : List Char) :
    plainWord? false (m ++ '\n' :: tail) = some (m.takeWhile (!isGap ·)) := by
  induction m generalizing afterBlank with
  | nil => rfl
  | cons c m ih =>
    obtain ⟨-, hbreak, hcolon, -, hrest⟩ := goesPlain_cons h
    have hword : ¬(c == ':' && endsWord (m ++ '\n' :: tail)) := by
      rw [endsWord_append_newline, Bool.and_eq_true, beq_iff_eq]
      exact hcolon
    by_cases hc : isGap c
    · simp [plainWord?, hc]
    · simp [plainWord?, hc, hbreak, hword, ih hrest]

lemma goesPlain_dropWhile {afterBlank : Bool} (h : goesPlain afterBlank m)
    (hhead : ∀ c ∈ m.head?, isGap c = false) (hne : m ≠ []) :
    goesPlain false (m.dropWhile (!isGap ·)) := by
  induction m generalizing afterBlank with
  | nil => exact absurd rfl hne
  | cons c m ih =>
    have hc := hhead c rfl
    obtain ⟨-, -, -, -, hrest⟩ := goesPlain_cons h
    rw [hc] at hrest
    rw [List.dropWhile_cons, hc]
    cases m with
    | nil => rfl
    | cons d m =>
      by_cases hd : isGap d
      · simpa [hd] using hrest
      · simpa using ih hrest (by simpa using hd) (by simp)

lemma Gap.take?_blanks {tabLimit : ℕ} {blanks rest : List Char} (hblanks : ∀ c ∈ blanks, isGap c)
    (hrest : ∀ c ∈ rest.head?, isGap c = false ∧ isBreak c = false) (before : List Char)
    (hcursor : cursor.rest = blanks ++ rest) (hfuel : blanks.length ≤ fuel) :
    Gap.take? tabLimit fuel ⟨before, [], cursor⟩ =
      some ⟨before ++ blanks, [], cursor.skip blanks.length⟩ := by
  induction blanks generalizing before cursor fuel with
  | nil =>
    have hgap : Gap.take? tabLimit fuel ⟨before, [], cursor⟩ = some ⟨before, [], cursor⟩ := by
      cases fuel with
      | zero => rfl
      | succ fuel =>
        rw [List.nil_append] at hcursor
        cases rest with
        | nil => simp [Gap.take?, hcursor]
        | cons c rest =>
          obtain ⟨hgap, hbreak⟩ := hrest c rfl
          simp [Gap.take?, hcursor, hgap, takeBreak?_of_not_isBreak hbreak]
    rw [hgap]
    simp [Cursor.skip]
  | cons c blanks ih =>
    obtain ⟨fuel, rfl⟩ : ∃ less, fuel = less + 1 := ⟨fuel - 1, by simp at hfuel; omega⟩
    have hnext : (cursor.skip 1).rest = blanks ++ rest := by simp [Cursor.skip, hcursor]
    have hstep := ih (fun d hd => hblanks d (List.mem_cons_of_mem _ hd)) (before ++ [c]) hnext
      (by simpa using hfuel)
    rw [Cursor.skip_skip] at hstep
    simp [Gap.take?, hcursor, hblanks c List.mem_cons_self, hstep, Nat.add_comm]

lemma takeBreak?_newline (tail : List Char) : takeBreak? ('\n' :: tail) = some ('\n', tail) := rfl

lemma skipBreak_newline (hcursor : cursor.rest = '\n' :: tail) :
    cursor.skipBreak = ⟨tail, cursor.index + 1, cursor.line + 1, 0⟩ := by
  simp [Cursor.skipBreak, hcursor, takeBreak?_newline]

lemma gapAt?_newline {tabLimit : ℕ} (htail : StartsWord tail)
    (hcursor : cursor.rest = '\n' :: tail) :
    gapAt? tabLimit cursor =
      some ⟨[], ['\n'], ⟨tail, cursor.index + 1, cursor.line + 1, 0⟩⟩ := by
  obtain ⟨c, rest, rfl, hc⟩ := htail
  obtain ⟨hgap, hbreak, -⟩ := ordinary_of_isAlphanum hc
  have hnewline : isGap '\n' = false := rfl
  simp only [gapAt?, hcursor, List.length_cons, Gap.take?, hnewline, Bool.false_eq_true, if_false,
    takeBreak?_newline, skipBreak_newline hcursor, hgap, takeBreak?_of_not_isBreak hbreak,
    List.nil_append]

lemma plainFrom?_word (hmark : (gap.cursor.atDocumentMark || gap.cursor.sees '#') = false)
    (hword : plainWord? false gap.cursor.rest = some word) (hne : word ≠ [])
    (hends : endsWord (gap.cursor.skip word.length).rest)
    (hrest : (gap.cursor.skip word.length).rest ≠ []) :
    plainFrom? false indent (fuel + 1) text gap =
      (gapAt? indent (gap.cursor.skip word.length)).bind fun next =>
        if next.cursor.column < indent then
          some (text ++ gap.fold ++ word, next.cursor, !next.breaks.isEmpty)
        else plainFrom? false indent fuel (text ++ gap.fold ++ word) next := by
  obtain ⟨c, others, rfl⟩ := List.exists_cons_of_ne_nil hne
  have hgo : (!endsWord (gap.cursor.skip (c :: others).length).rest ||
      (gap.cursor.skip (c :: others).length).rest.isEmpty) = false := by
    rw [hends, List.isEmpty_eq_false_iff.mpr hrest]
    rfl
  simp only [plainFrom?, hmark, hword, hgo, Bool.false_eq_true, if_false, Bool.not_false,
    Bool.true_and, decide_eq_true_eq]
  cases gapAt? indent (gap.cursor.skip (c :: others).length) <;> rfl

/-- Where a line goes on as a plain scalar after a blank, the blanks up to its next word are a gap
that is kept as it is. -/
lemma gapAt?_blanks {tabLimit : ℕ} {left : List Char} (hgoes : goesPlain false left)
    (hne : left ≠ []) (hstart : ∀ c ∈ left.head?, isGap c)
    (hcursor : cursor.rest = left ++ '\n' :: tail) :
    ∃ blanks others, left = blanks ++ others ∧ blanks ≠ [] ∧ others ≠ [] ∧
      (∀ c ∈ others.head?, isGap c = false) ∧ goesPlain true others ∧
      gapAt? tabLimit cursor = some ⟨blanks, [], cursor.skip blanks.length⟩ := by
  have hsplit : left.takeWhile isGap ++ left.dropWhile isGap = left :=
    List.takeWhile_append_dropWhile
  have hblanks : ∀ c ∈ left.takeWhile isGap, isGap c := fun c hc => List.mem_takeWhile_imp hc
  have hrest : ∀ c ∈ (left.dropWhile isGap).head?, isGap c = false := by
    intro c hc
    have hnot := List.head?_dropWhile_not isGap left
    rw [Option.mem_def.mp hc] at hnot
    exact hnot
  have hsome : left.takeWhile isGap ≠ [] := by
    obtain ⟨c, others, rfl⟩ := List.exists_cons_of_ne_nil hne
    simp [hstart c rfl]
  generalize left.takeWhile isGap = blanks at hsplit hblanks hsome
  generalize left.dropWhile isGap = others at hsplit hrest
  subst hsplit
  rw [goesPlain_blanks hblanks, List.isEmpty_eq_false_iff.mpr hsome] at hgoes
  have hothers : others ≠ [] := by
    rintro rfl
    cases hgoes
  refine ⟨blanks, others, rfl, hsome, hothers, hrest, hgoes, ?_⟩
  obtain ⟨c, others, rfl⟩ := List.exists_cons_of_ne_nil hothers
  have hplace : cursor.rest = blanks ++ (c :: (others ++ '\n' :: tail)) := by simp [hcursor]
  apply Gap.take?_blanks hblanks _ [] hplace
  · simp [hcursor]
  · simp [hrest c rfl, (goesPlain_cons hgoes).2.1]

lemma plainFrom?_of_goesPlain (hindent : 1 ≤ indent) (htail : StartsWord tail)
    {blanks : List Char} (hgoes : goesPlain (!blanks.isEmpty) m) (hne : m ≠ [])
    (hhead : ∀ c ∈ m.head?, isGap c = false) (hcomment : blanks = [] → m.head? ≠ some '#')
    (hcursor : cursor.rest = m ++ '\n' :: tail) (hcolumn : indent ≤ cursor.column)
    (hfuel : m.length ≤ fuel) (text : List Char) :
    plainFrom? false indent fuel text ⟨blanks, [], cursor⟩ =
      some (text ++ blanks ++ m,
        ⟨tail, cursor.index + m.length + 1, cursor.line + 1, 0⟩, true) := by
  induction fuel generalizing text blanks m cursor with
  | zero => exact absurd (List.eq_nil_of_length_eq_zero (Nat.le_zero.mp hfuel)) hne
  | succ fuel ih =>
    have hword := plainWord?_of_goesPlain hgoes tail
    have hleft := goesPlain_dropWhile hgoes hhead hne
    have hsplit : m.takeWhile (!isGap ·) ++ m.dropWhile (!isGap ·) = m :=
      List.takeWhile_append_dropWhile
    have hstart : ∀ d ∈ (m.dropWhile (!isGap ·)).head?, isGap d := by
      intro d hd
      have hnot := List.head?_dropWhile_not (!isGap ·) m
      rw [Option.mem_def.mp hd] at hnot
      simpa using hnot
    have hmark : (cursor.atDocumentMark || cursor.sees '#') = false := by
      obtain ⟨c, rest, rfl⟩ := List.exists_cons_of_ne_nil hne
      have hc : c ≠ '#' := by
        by_cases hblanks : blanks = []
        · simpa using hcomment hblanks
        · exact (goesPlain_cons hgoes).2.2.2.1 (by simpa using hblanks)
      have hzero : cursor.column ≠ 0 := by omega
      simp [Cursor.atDocumentMark, Cursor.atMark, hzero, Cursor.sees, hcursor, hc]
    have hwordNe : m.takeWhile (!isGap ·) ≠ [] := by
      obtain ⟨c, rest, rfl⟩ := List.exists_cons_of_ne_nil hne
      simp [hhead c rfl]
    generalize m.takeWhile (!isGap ·) = word at hword hsplit hwordNe
    generalize m.dropWhile (!isGap ·) = left at hleft hsplit hstart
    subst hsplit
    have hafter : (cursor.skip word.length).rest = left ++ '\n' :: tail := by
      simp [Cursor.skip, hcursor]
    rw [← hcursor] at hword
    have hends : endsWord (cursor.skip word.length).rest := by
      rw [hafter, endsWord_append_newline]
      cases left with
      | nil => rfl
      | cons d left => simp [endsWord, hstart d rfl]
    rw [plainFrom?_word hmark hword hwordNe hends (by simp [hafter])]
    by_cases hlast : left = []
    · subst hlast
      rw [gapAt?_newline htail hafter]
      simp [Cursor.skip, Gap.fold, Nat.lt_of_lt_of_le Nat.zero_lt_one hindent]
    · obtain ⟨more, others, rfl, hmore, hothers, hnext, hgoes, hgap⟩ :=
        @gapAt?_blanks tail _ indent _ hleft hlast hstart hafter
      have hplace : ((cursor.skip word.length).skip more.length).rest = others ++ '\n' :: tail := by
        simp [Cursor.skip, hcursor]
      have hdeep : indent ≤ ((cursor.skip word.length).skip more.length).column := by
        simp only [Cursor.skip]
        omega
      have hflag : goesPlain (!more.isEmpty) others := by
        rwa [List.isEmpty_eq_false_iff.mpr hmore]
      have hwordPos := List.length_pos_of_ne_nil hwordNe
      simp only [List.length_append] at hfuel
      rw [hgap, Option.bind_some, if_neg (Nat.not_lt.mpr hdeep),
        ih hflag hothers hnext (fun hempty => absurd hempty hmore) hplace
          hdeep (by omega)]
      simp only [Cursor.skip, Gap.fold, List.length_append, List.append_assoc]
      congr 4
      omega

theorem plain?_of_goesPlain (hindent : 1 ≤ indent) (htail : StartsWord tail)
    (hbegins : beginsPlain m) (hgoes : goesPlain false m)
    (hcursor : cursor.rest = m ++ '\n' :: tail) (hcolumn : indent ≤ cursor.column) :
    plain? false indent cursor =
      some (m, ⟨tail, cursor.index + m.length + 1, cursor.line + 1, 0⟩, true) := by
  obtain ⟨c, rest, rfl⟩ : ∃ c rest, m = c :: rest := by
    cases m with
    | nil => cases hbegins
    | cons c rest => exact ⟨c, rest, rfl⟩
  have hstart : isGap c = false ∧ c ≠ '#' := by
    simp only [beginsPlain, Bool.or_eq_true, Bool.and_eq_true, Bool.not_eq_true'] at hbegins
    obtain ⟨hindicator, hgap⟩ | ⟨hword, -⟩ := hbegins
    · refine ⟨hgap, ?_⟩
      rintro rfl
      cases hindicator
    · rw [List.contains_iff_mem] at hword
      fin_cases hword <;> decide
  have hfuel : (c :: rest).length ≤ cursor.rest.length := by simp [hcursor]
  have hflag : goesPlain (!([] : List Char).isEmpty) (c :: rest) := hgoes
  exact plainFrom?_of_goesPlain hindent htail hflag (by simp) (by simpa using hstart.1)
    (fun _ => by simpa using hstart.2) hcursor hcolumn hfuel []

end Yaml

end RecordMapping

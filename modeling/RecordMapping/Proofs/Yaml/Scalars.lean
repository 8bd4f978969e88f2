import RecordMapping.Proofs.Yaml.Lines

/-!
# Quoted scalars

The text of a quoted scalar is not the source that it is written in: a quote or a backslash of the
text costs more in the source. Characters are given weights in the text and in the source, so that
no scalar weighs more than its source. Main statement: a quoted scalar is never the whole text that
its opening quote stands in.
-/

namespace RecordMapping

namespace Yaml

variable {cursor after : Cursor} {text whole rest : List Char} {c quote : Char} {fuel : ℕ}

lemma takeBreak?_some {source : List Char} (h : takeBreak? source = some (c, rest)) :
    isBreak c ∧ rest <:+ source := by
  unfold takeBreak? at h
  split at h
  · cases h
    exact ⟨rfl, List.suffix_cons_iff.mpr (.inr (List.suffix_cons _ _))⟩
  · rename_i d others _
    split_ifs at h with hcode hbreak
    · cases h
      refine ⟨?_, List.suffix_cons _ _⟩
      rw [Bool.or_eq_true] at hcode
      simp only [isBreak, Bool.or_eq_true]
      tauto
    · cases h
      exact ⟨rfl, List.suffix_cons _ _⟩
  · cases h

lemma skipBreak_suffix (cursor : Cursor) : cursor.skipBreak.rest <:+ cursor.rest := by
  unfold Cursor.skipBreak
  split
  · rename_i htake
    exact (takeBreak?_some htake).2
  · exact List.suffix_refl _

/-- Blanks and breaks: what stands between the words of a scalar. -/
def IsSpace (c : Char) : Prop := isGap c ∨ isBreak c

lemma take?_some {tabLimit : ℕ} {gap found : Gap}
    (h : Gap.take? tabLimit fuel gap = some found)
    (hblanks : ∀ c ∈ gap.blanks, isGap c) (hbreaks : ∀ c ∈ gap.breaks, isBreak c) :
    (∀ c ∈ found.blanks, isGap c) ∧ (∀ c ∈ found.breaks, isBreak c) ∧
      found.cursor.rest <:+ gap.cursor.rest := by
  induction fuel generalizing gap with
  | zero =>
    cases h
    exact ⟨hblanks, hbreaks, List.suffix_refl _⟩
  | succ fuel ih =>
    have hdrop : (gap.cursor.skip 1).rest <:+ gap.cursor.rest := List.drop_suffix _ _
    unfold Gap.take? at h
    split at h
    · cases h
      exact ⟨hblanks, hbreaks, List.suffix_refl _⟩
    · split at h
      · rename_i hgap
        split_ifs at h with hempty
        · obtain ⟨hb, hk, hs⟩ := ih h (by simpa [or_imp, forall_and, hgap] using hblanks) hbreaks
          exact ⟨hb, hk, hs.trans hdrop⟩
        · obtain ⟨hb, hk, hs⟩ := ih h hblanks hbreaks
          exact ⟨hb, hk, hs.trans hdrop⟩
      · split at h
        · rename_i htake
          have hline := (takeBreak?_some htake).1
          obtain ⟨hb, hk, hs⟩ := ih h hblanks (by simpa [or_imp, forall_and, hline] using hbreaks)
          exact ⟨hb, hk, hs.trans (skipBreak_suffix _)⟩
        · cases h
          exact ⟨hblanks, hbreaks, List.suffix_refl _⟩

lemma gapAt?_some {tabLimit : ℕ} {gap : Gap} (h : gapAt? tabLimit cursor = some gap) :
    (∀ c ∈ gap.blanks, isGap c) ∧ (∀ c ∈ gap.breaks, isBreak c) ∧ gap.cursor.rest <:+ cursor.rest :=
  take?_some h (by simp) (by simp)

lemma isSpace_of_mem_fold {gap : Gap} (hblanks : ∀ c ∈ gap.blanks, isGap c)
    (hbreaks : ∀ c ∈ gap.breaks, isBreak c) : ∀ c ∈ gap.fold, IsSpace c := by
  intro c hc
  unfold Gap.fold at hc
  split at hc
  · exact .inl (hblanks c hc)
  · obtain rfl := List.mem_singleton.mp hc
    exact .inl rfl
  · rename_i more _ heq
    exact .inr (hbreaks c (heq ▸ List.mem_cons_of_mem _ hc))
  · exact .inr (hbreaks c hc)

def weight (f : Char → ℕ) (text : List Char) : ℕ := (text.map f).sum

@[simp]
lemma weight_nil (f : Char → ℕ) : weight f [] = 0 := rfl

@[simp]
lemma weight_append (f : Char → ℕ) (a b : List Char) :
    weight f (a ++ b) = weight f a + weight f b := by
  simp [weight]

@[simp]
lemma weight_cons (f : Char → ℕ) (c : Char) (text : List Char) :
    weight f (c :: text) = f c + weight f text := by
  simp [weight]

lemma weight_le_of_suffix (f : Char → ℕ) {a b : List Char} (h : a <:+ b) :
    weight f a ≤ weight f b := by
  obtain ⟨before, rfl⟩ := h
  rw [weight_append]
  omega

lemma weight_eq_zero {f : Char → ℕ} (h : ∀ c ∈ text, f c = 0) : weight f text = 0 := by
  simp only [weight, List.sum_eq_zero_iff, List.mem_map]
  rintro n ⟨c, hc, rfl⟩
  exact h c hc

/-- Weights of characters in the text of a quoted scalar and in its source, so that what is written
for a character weighs as much as the character. -/
structure Balanced (quote : Char) (inText inSource : Char → ℕ) : Prop where
  space : ∀ c, IsSpace c → inText c = 0
  raw : ∀ c, c ≠ quote → ¬(c = '\\' ∧ quote = '"') → inText c ≤ inSource c
  doubled : quote = '\'' → inText '\'' ≤ 2 * inSource '\''
  escaped : quote = '"' → ∀ c, inText c ≤ inSource '\\'

variable {inText inSource : Char → ℕ}

lemma Balanced.quotedWord? (h : Balanced quote inText inSource) {word found : List Char}
    {escaped : Bool} (hread : quotedWord? quote fuel word cursor = some (found, after, escaped)) :
    weight inText found + weight inSource after.rest ≤
      weight inText word + weight inSource cursor.rest := by
  induction fuel generalizing word cursor with
  | zero =>
    cases hread
    exact le_rfl
  | succ fuel ih =>
    unfold Yaml.quotedWord? at hread
    split at hread
    · cases hread
      exact le_rfl
    · rename_i c rest hrest
      have hskip (n : ℕ) : (cursor.skip (n + 1)).rest = rest.drop n := by simp [Cursor.skip, hrest]
      split_ifs at hread with hspace hdouble hquote hescape hbreak
      · cases hread
        exact le_rfl
      · simp only [Bool.and_eq_true, beq_iff_eq] at hdouble
        obtain ⟨⟨rfl, hquote⟩, hhead⟩ := hdouble
        obtain ⟨others, rfl⟩ := List.head?_eq_some_iff.mp hhead
        have hweight := ih hread
        have htwo := h.doubled hquote
        simp only [hskip, hrest, weight_append, weight_cons, weight_nil, List.drop_succ_cons,
          List.drop_zero] at hweight ⊢
        omega
      · cases hread
        exact le_rfl
      · cases hread
        have hsuffix := (skipBreak_suffix (cursor.skip 1)).trans (List.drop_suffix 1 cursor.rest)
        have hle := weight_le_of_suffix inSource hsuffix
        omega
      · simp only [Bool.and_eq_true, beq_iff_eq] at hescape
        obtain ⟨rfl, hmark⟩ := hescape
        split at hread
        · cases hread
        · rename_i d length _
          have hweight := ih hread
          have hone := h.escaped hmark d
          have hle := weight_le_of_suffix inSource (List.drop_suffix length rest)
          simp only [hskip, hrest, weight_append, weight_cons, weight_nil] at hweight hle ⊢
          omega
      · have hweight := ih hread
        have hraw := h.raw c (by simpa using hquote) (by simpa using hescape)
        have hnext : (cursor.skip 1).rest = rest := hskip 0
        simp only [hnext, hrest, weight_append, weight_cons, weight_nil] at hweight ⊢
        omega

lemma Balanced.fold (h : Balanced quote inText inSource) {gap : Gap}
    (hblanks : ∀ c ∈ gap.blanks, isGap c) (hbreaks : ∀ c ∈ gap.breaks, isBreak c) :
    weight inText gap.fold = 0 :=
  weight_eq_zero fun c hc => h.space c (isSpace_of_mem_fold hblanks hbreaks c hc)

lemma Balanced.quotedFrom? (h : Balanced quote inText inSource)
    (hread : quotedFrom? quote fuel text cursor = some (whole, after)) :
    weight inText whole + weight inSource after.rest ≤
      weight inText text + weight inSource cursor.rest := by
  induction fuel generalizing text cursor with
  | zero => cases hread
  | succ fuel ih =>
    simp only [Yaml.quotedFrom?] at hread
    split at hread
    · cases hread
    · split at hread
      · cases hread
      · rename_i word next escaped hword
        have hwordLe := h.quotedWord? hword
        have hempty := weight_nil inText
        split_ifs at hread
        · cases hread
          have hdrop := weight_le_of_suffix inSource (List.drop_suffix 1 next.rest)
          simp only [Cursor.skip, weight_append] at hdrop ⊢
          omega
        · split at hread
          · cases hread
          · rename_i gap hgap
            obtain ⟨hblanks, hbreaks, hsuffix⟩ := gapAt?_some hgap
            have hrest := ih hread
            have hfold : weight inText (foldEscaped gap) = 0 :=
              weight_eq_zero fun c hc => h.space c (.inr (hbreaks c hc))
            have hle := weight_le_of_suffix inSource
              (hsuffix.trans (List.drop_suffix _ next.rest))
            rw [weight_append, weight_append, hfold] at hrest
            omega
        · split at hread
          · cases hread
          · rename_i gap hgap
            obtain ⟨hblanks, hbreaks, hsuffix⟩ := gapAt?_some hgap
            have hrest := ih hread
            have hle := weight_le_of_suffix inSource hsuffix
            rw [weight_append, weight_append, h.fold hblanks hbreaks] at hrest
            omega

/-- The text of a quoted scalar weighs no more than what is written after the opening quote. -/
lemma Balanced.quoted? (h : Balanced quote inText inSource)
    (hread : quoted? quote cursor = some (whole, after)) :
    weight inText whole ≤ weight inSource (cursor.rest.drop 1) := by
  have hle := h.quotedFrom? hread
  rw [weight_nil] at hle
  simp only [Cursor.skip] at hle
  omega

/-- A quoted scalar is never the text that its quote stands in, up to a line where what is behind it
weighs nothing. -/
theorem Balanced.quoted?_ne (h : Balanced quote inText inSource) (hquote : 0 < inText quote)
    (hle : ∀ c, inSource c ≤ inText c) {m tail name : List Char}
    (htail : weight inSource ('\n' :: tail) = 0) (hname : quote :: m <:+ name)
    (hrest : cursor.rest = quote :: (m ++ '\n' :: tail))
    (hread : Yaml.quoted? quote cursor = some (whole, after)) : whole ≠ name := by
  rintro rfl
  have hweight := h.quoted? hread
  have hmore := weight_le_of_suffix inText hname
  have hsource : weight inSource m ≤ weight inText m := List.sum_le_sum fun c _ => hle c
  rw [hrest, List.drop_succ_cons, List.drop_zero, weight_append, htail] at hweight
  rw [weight_cons] at hmore
  omega

def doubleText (c : Char) : ℕ := (if c = '"' then 1 else 0) + if c = '\\' then 1 else 0

def doubleSource (c : Char) : ℕ := if c = '\\' then 1 else 0

lemma balanced_double : Balanced '"' doubleText doubleSource where
  space := by
    intro c hc
    have hne {d : Char} (hgap : isGap d = false) (hbreak : isBreak d = false) : c ≠ d := by
      rintro rfl
      simp [IsSpace, hgap, hbreak] at hc
    simp [doubleText, hne (d := '"') rfl rfl, hne (d := '\\') rfl rfl]
  raw := by
    intro c hquote hescape
    simp_all [doubleText]
  doubled := by simp
  escaped := by
    intro _ c
    unfold doubleText doubleSource
    split_ifs <;> simp_all

def singleText (c : Char) : ℕ := if c = '\'' then 2 else 0

def singleSource (c : Char) : ℕ := if c = '\'' then 1 else 0

lemma balanced_single : Balanced '\'' singleText singleSource where
  space := by
    rintro c (hc | hc) <;> unfold singleText <;> split_ifs <;> simp_all [isGap, isBreak]
  raw := by
    intro c hquote _
    simp [singleText, hquote]
  doubled := by simp [singleText, singleSource]
  escaped := by simp

end Yaml

end RecordMapping

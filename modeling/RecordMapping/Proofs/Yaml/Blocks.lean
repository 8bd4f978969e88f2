import RecordMapping.Proofs.Yaml.Scalars

/-!
# Places in a line, and block scalars

Scanners that start in a text which has further lines behind it stay in the text or come to the
beginning of the next line. Main statement: a block scalar that starts in the text holds no
character more often than the text does behind its mark, since the next line is not indented.
-/

namespace RecordMapping

namespace Yaml

variable {cursor after : Cursor} {m tail left : List Char} {c x : Char} {fuel n : ℕ}

/-- Whether a place is in a text, before the line break behind it. -/
def Within (tail m : List Char) (cursor : Cursor) : Prop :=
  ∃ left, left <:+ m ∧ cursor.rest = left ++ '\n' :: tail

/-- Whether a place is in a text or at the beginning of the line behind it. -/
def Reaches (tail m : List Char) (cursor : Cursor) : Prop :=
  Within tail m cursor ∨ cursor.rest = tail ∧ cursor.column = 0

lemma takeWhile_line {p : Char → Bool} (hp : p '\n' = false) (left tail : List Char) :
    (left ++ '\n' :: tail).takeWhile p = left.takeWhile p := by
  induction left with
  | nil => simp [hp]
  | cons c left ih => simp [List.takeWhile_cons, ih]

lemma length_takeWhile_le {p : Char → Bool} (hp : p '\n' = false) (left tail : List Char) :
    ((left ++ '\n' :: tail).takeWhile p).length ≤ left.length := by
  rw [takeWhile_line hp]
  exact (List.takeWhile_sublist p).length_le

lemma Within.skip {p : Char → Bool} (h : Within tail m cursor) (hp : p '\n' = false)
    (hn : n ≤ (cursor.rest.takeWhile p).length) : Within tail m (cursor.skip n) := by
  obtain ⟨left, hleft, hrest⟩ := h
  have hle : n ≤ left.length := hn.trans (hrest ▸ length_takeWhile_le hp left tail)
  refine ⟨left.drop n, (List.drop_suffix n left).trans hleft, ?_⟩
  rw [Cursor.skip, hrest, List.drop_append_of_le_length hle]

lemma Within.skipWhile {p : Char → Bool} (h : Within tail m cursor)
    (hp : p '\n' = false) : Within tail m (cursor.skipWhile p) :=
  h.skip hp le_rfl

lemma Within.skip_one (h : Within tail m cursor) (hhead : cursor.rest.head? = some c)
    (hc : c ≠ '\n') : Within tail m (cursor.skip 1) := by
  refine h.skip (p := (· == c)) (by simpa using Ne.symm hc) ?_
  obtain ⟨rest, hrest⟩ := List.head?_eq_some_iff.mp hhead
  simp [hrest]

lemma Within.skipBreak (h : Within tail m cursor) : Reaches tail m cursor.skipBreak := by
  obtain ⟨left, hleft, hrest⟩ := h
  cases htake : takeBreak? cursor.rest with
  | none =>
    refine .inl ⟨left, hleft, ?_⟩
    rw [Cursor.skipBreak, htake]
    exact hrest
  | some found =>
    have hbreak : (left ++ '\n' :: tail).head?.any isBreak := by
      by_contra hno
      cases hleft : left ++ '\n' :: tail with
      | nil => simp at hleft
      | cons c others =>
        rw [hrest, hleft, takeBreak?_of_not_isBreak (by simpa [hleft] using hno)] at htake
        cases htake
    obtain ⟨lineBreak, rest, -, hfound, hbehind⟩ := takeBreak?_within hbreak
    rw [← hrest] at hfound
    obtain ⟨hnext, hcolumn⟩ := skipBreak_of_takeBreak? hfound
    obtain rfl | ⟨less, hless, -, rfl⟩ := hbehind
    · exact .inr ⟨hnext, hcolumn⟩
    · exact .inl ⟨less, hless.trans hleft, hnext⟩

lemma digit_within {width? : Option ℕ} (h : Within tail m cursor)
    (hread : (match cursor.peek? with
      | some c =>
        if c == '0' then none
        else if c.isDigit then some (some (c.toNat - 48), cursor.skip 1)
        else some (none, cursor)
      | none => some (none, cursor)) = some (width?, after)) :
    Within tail m after ∧ ∀ width ∈ width?, 1 ≤ width := by
  split at hread
  · rename_i c hpeek
    split_ifs at hread with hzero hdigit
    · cases hread
      have hne : c ≠ '\n' := by
        rintro rfl
        cases hdigit
      refine ⟨h.skip_one hpeek hne, ?_⟩
      have hcode : c.toNat ≠ 48 := by
        intro hcode
        exact hzero (by simpa using Char.toNat_inj.mp (hcode.trans (by decide : 48 = '0'.toNat)))
      simp only [Char.isDigit, Bool.and_eq_true, decide_eq_true_eq,
        UInt32.le_iff_toNat_le] at hdigit
      change 48 ≤ c.toNat ∧ c.toNat ≤ 57 at hdigit
      simp only [Option.mem_def, Option.some.injEq]
      omega
    · cases hread
      exact ⟨h, by simp⟩
  · cases hread
    exact ⟨h, by simp⟩

lemma chomping_within {chomping : Chomping} (h : Within tail m cursor)
    (hsign : cursor.peek?.bind chomping? = some chomping) : Within tail m (cursor.skip 1) := by
  obtain ⟨c, hpeek, hchomping⟩ := Option.bind_eq_some_iff.mp hsign
  refine h.skip_one hpeek ?_
  rintro rfl
  cases hchomping

/-- The header of a block scalar stays in the text, and asks for no indentation of nothing. -/
lemma blockHeader?_within {chomping : Chomping} {width? : Option ℕ} (h : Within tail m cursor)
    (hread : blockHeader? cursor = some (chomping, width?, after)) :
    Within tail m after ∧ ∀ width ∈ width?, 1 ≤ width := by
  unfold blockHeader? at hread
  dsimp only at hread
  split at hread
  · rename_i sign hsign
    obtain ⟨⟨found, next⟩, hdigit, heq⟩ := Option.map_eq_some_iff.mp hread
    cases heq
    exact digit_within (chomping_within h hsign) hdigit
  · split at hread
    · cases hread
      exact ⟨h, by simp⟩
    · cases hread
    · rename_i found next _ hdigit
      have hnext := digit_within h hdigit
      split at hread
      · rename_i sign hsign
        cases hread
        exact ⟨chomping_within hnext.1 hsign, hnext.2⟩
      · cases hread
        exact hnext

lemma blankLines?_succ {indent? : Option ℕ} {breaks found : List Char} {widest width : ℕ}
    (hread : blankLines? indent? (fuel + 1) breaks widest cursor = some (found, width, after)) :
    ∃ taken, taken ≤ (cursor.rest.takeWhile (· == ' ')).length ∧
      match takeBreak? (cursor.skip taken).rest with
      | some (lineBreak, _) =>
        ∃ widest, blankLines? indent? fuel (breaks ++ [lineBreak]) widest
          (cursor.skip taken).skipBreak = some (found, width, after)
      | none => found = breaks ∧ after = cursor.skip taken := by
  obtain ⟨taken, inIndent, hle, hread⟩ : ∃ (taken : ℕ) (inIndent : Bool),
      taken ≤ (cursor.rest.takeWhile (· == ' ')).length ∧
      (if inIndent && (cursor.skip taken).sees '\t' then none
        else match takeBreak? (cursor.skip taken).rest with
          | some (lineBreak, _) =>
            blankLines? indent? fuel (breaks ++ [lineBreak])
              (max widest (cursor.skip taken).column) (cursor.skip taken).skipBreak
          | none => some (breaks, max widest (cursor.skip taken).column, cursor.skip taken)) =
        some (found, width, after) := by
    cases indent? with
    | none => exact ⟨_, _, le_rfl, hread⟩
    | some n => exact ⟨_, _, min_le_left _ _, hread⟩
  refine ⟨taken, hle, ?_⟩
  split at hread
  · cases hread
  · split at hread
    · exact ⟨_, hread⟩
    · cases hread
      exact ⟨rfl, rfl⟩

lemma blankLines?_reaches {indent? : Option ℕ} {breaks found : List Char} {widest width : ℕ}
    (htail : StartsWord tail) (h : Reaches tail m cursor) (hbreaks : ∀ c ∈ breaks, isBreak c)
    (hread : blankLines? indent? fuel breaks widest cursor = some (found, width, after)) :
    Reaches tail m after ∧ ∀ c ∈ found, isBreak c := by
  induction fuel generalizing breaks widest cursor with
  | zero =>
    cases hread
    exact ⟨h, hbreaks⟩
  | succ fuel ih =>
    obtain ⟨taken, hle, hread⟩ := blankLines?_succ hread
    have hskip : Reaches tail m (cursor.skip taken) := by
      obtain hwithin | ⟨hrest, hcolumn⟩ := h
      · exact .inl (hwithin.skip rfl hle)
      · obtain ⟨c, rest, rfl, hc⟩ := htail
        have hgap := (ordinary_of_isAlphanum hc).1
        simp only [isGap, Bool.or_eq_false_iff] at hgap
        have hnone : taken = 0 := by simpa [hrest, hgap] using hle
        rw [hnone]
        exact .inr ⟨hrest, hcolumn⟩
    split at hread
    · rename_i lineBreak rest htake
      obtain ⟨widest, hread⟩ := hread
      have hbreak := (takeBreak?_some htake).1
      obtain hwithin | ⟨hrest, -⟩ := hskip
      · exact ih hwithin.skipBreak
          (by simpa [or_imp, forall_and, hbreak] using hbreaks) hread
      · rw [hrest, htail.takeBreak?] at htake
        cases htake
    · obtain ⟨rfl, rfl⟩ := hread
      exact ⟨hskip, hbreaks⟩

lemma not_mem_betweenLines {folded afterBlank beforeBlank : Bool} {lineBreak blankLines : List Char}
    (hx : ¬ IsSpace x) (hline : ∀ c ∈ lineBreak, isBreak c) (hblank : ∀ c ∈ blankLines, isBreak c) :
    x ∉ betweenLines folded afterBlank beforeBlank lineBreak blankLines := by
  have hlineBreak : x ∉ lineBreak := fun hmem => hx (.inr (hline x hmem))
  have hblankLines : x ∉ blankLines := fun hmem => hx (.inr (hblank x hmem))
  have hspace : x ≠ ' ' := by
    rintro rfl
    exact hx (.inl rfl)
  unfold betweenLines
  split_ifs <;> simp [hlineBreak, hblankLines, hspace]

lemma blockLines?_succ {folded afterBlank : Bool} {indent : ℕ}
    {text whole lineBreak blankLines lastBreak lastLines : List Char}
    (hcolumn : (cursor.column != indent || cursor.rest.isEmpty) = false)
    (hread : blockLines? folded indent (fuel + 1) text afterBlank lineBreak blankLines cursor =
      some (whole, lastBreak, lastLines, after)) :
    ∃ startsBlank fuel' nextBreak nextLines width next, (∀ c ∈ nextBreak, isBreak c) ∧
      blankLines? (some indent) fuel' [] 0 (cursor.skipWhile (!isBreak ·)).skipBreak =
        some (nextLines, width, next) ∧
      blockLines? folded indent fuel
        (text ++ betweenLines folded afterBlank startsBlank lineBreak blankLines ++
          cursor.rest.takeWhile (!isBreak ·)) startsBlank nextBreak nextLines next =
        some (whole, lastBreak, lastLines, after) := by
  unfold blockLines? at hread
  rw [hcolumn, if_neg Bool.false_ne_true] at hread
  dsimp only at hread
  split at hread
  · cases hread
  · rename_i nextLines width next hblank
    refine ⟨_, _, _, nextLines, width, next, ?_, hblank, hread⟩
    intro c hc
    split at hc
    · rename_i htake
      obtain rfl := List.mem_singleton.mp hc
      exact (takeBreak?_some htake).1
    · cases hc

lemma blockLines?_count {folded afterBlank : Bool} {indent : ℕ}
    {text whole lineBreak blankLines lastBreak lastLines : List Char} (hindent : 1 ≤ indent)
    (htail : StartsWord tail) (hx : ¬ IsSpace x) (h : Reaches tail m cursor)
    (hline : ∀ c ∈ lineBreak, isBreak c) (hblank : ∀ c ∈ blankLines, isBreak c)
    (hread : blockLines? folded indent fuel text afterBlank lineBreak blankLines cursor =
      some (whole, lastBreak, lastLines, after)) :
    whole.count x ≤ text.count x + m.count x ∧ (∀ c ∈ lastBreak, isBreak c) ∧
      ∀ c ∈ lastLines, isBreak c := by
  induction fuel generalizing text afterBlank lineBreak blankLines cursor m with
  | zero =>
    cases hread
    exact ⟨Nat.le_add_right _ _, hline, hblank⟩
  | succ fuel ih =>
    by_cases hcolumn : (cursor.column != indent || cursor.rest.isEmpty) = true
    · rw [blockLines?, if_pos hcolumn] at hread
      cases hread
      exact ⟨Nat.le_add_right _ _, hline, hblank⟩
    · rw [Bool.not_eq_true] at hcolumn
      obtain ⟨startsBlank, _, nextBreak, nextLines, width, next, hnextBreak, hlines, hread⟩ :=
        blockLines?_succ hcolumn hread
      have hdeep : cursor.column = indent := by
        rw [Bool.or_eq_false_iff] at hcolumn
        simpa using hcolumn.1
      obtain ⟨left, hleft, hrest⟩ : Within tail m cursor := by
        obtain hwithin | ⟨-, hzero⟩ := h
        · exact hwithin
        · omega
      have hsplit : left.takeWhile (!isBreak ·) ++ left.dropWhile (!isBreak ·) = left :=
        List.takeWhile_append_dropWhile
      have htaken : cursor.rest.takeWhile (!isBreak ·) = left.takeWhile (!isBreak ·) := by
        rw [hrest, takeWhile_line rfl]
      have hbehind : Within tail (left.dropWhile (!isBreak ·)) (cursor.skipWhile (!isBreak ·)) := by
        refine ⟨_, List.suffix_refl _, ?_⟩
        rw [Cursor.skipWhile, htaken, Cursor.skip, hrest]
        nth_rewrite 2 [← hsplit]
        rw [List.append_assoc, List.drop_left]
      obtain ⟨hnext, hnextLines⟩ := blankLines?_reaches htail hbehind.skipBreak (by simp) hlines
      obtain ⟨hcount, hbreaks⟩ := ih hnext hnextBreak hnextLines hread
      refine ⟨?_, hbreaks⟩
      have hbetween :
          (betweenLines folded afterBlank startsBlank lineBreak blankLines).count x = 0 :=
        List.count_eq_zero_of_not_mem (not_mem_betweenLines hx hline hblank)
      have hleftCount := hleft.sublist.count_le x
      rw [← hsplit, List.count_append] at hleftCount
      rw [List.count_append, List.count_append, hbetween, htaken] at hcount
      omega

/-- A block scalar holds no character more often than the text behind its mark. -/
theorem block?_count {folded : Bool} {outer : ℤ} {whole : List Char} (htail : StartsWord tail)
    (hx : ¬ IsSpace x) (h : Within tail m (cursor.skip 1))
    (hread : block? folded outer cursor = some (whole, after)) : whole.count x ≤ m.count x := by
  unfold block? at hread
  obtain ⟨⟨chomping, width?, header⟩, hheader, hread⟩ := Option.bind_eq_some_iff.mp hread
  obtain ⟨hwithin, hwidth⟩ := blockHeader?_within h hheader
  have hblanks := hwithin.skipWhile (p := isGap) rfl
  dsimp only at hread
  have hend : Within tail m (if (header.skipWhile isGap).sees '#' then
      (header.skipWhile isGap).skipWhile (!isBreak ·) else header.skipWhile isGap) := by
    split
    · exact hblanks.skipWhile rfl
    · exact hblanks
  generalize (if (header.skipWhile isGap).sees '#' then
      (header.skipWhile isGap).skipWhile (!isBreak ·) else header.skipWhile isGap) = line
    at hread hend
  split at hread
  · cases hread
  · obtain ⟨⟨leading, widest, start⟩, hleading, hread⟩ := Option.bind_eq_some_iff.mp hread
    obtain ⟨⟨text, lineBreak, blankLines, next⟩, hlines, hread⟩ :=
      Option.bind_eq_some_iff.mp hread
    obtain ⟨hstart, hbreaks⟩ := blankLines?_reaches htail hend.skipBreak (by simp) hleading
    have hindent : 1 ≤ (width?.map fun width => outer.toNat + width).getD
        (max (max widest (outer + 1).toNat) 1) := by
      cases width? with
      | none => exact le_max_right _ _
      | some width => exact (hwidth width rfl).trans (Nat.le_add_left _ _)
    obtain ⟨hcount, hline, hblank⟩ :=
      blockLines?_count hindent htail hx hstart (by simp) hbreaks hlines
    have hnone {breaks : List Char} (h : ∀ c ∈ breaks, isBreak c) : breaks.count x = 0 :=
      List.count_eq_zero_of_not_mem fun hmem => hx (.inr (h x hmem))
    cases hread
    cases chomping <;>
      simp only [List.count_append, List.count_nil, hnone hline, hnone hblank] at hcount ⊢ <;>
      omega

end Yaml

end RecordMapping

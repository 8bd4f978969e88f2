import RecordMapping.Proofs.Plan.Segments

namespace RecordMapping

namespace Step

lemma isPosition_toDigits {n : Nat} (h : n < 2 ^ 64) : isPosition (Nat.toDigits 10 n) := by
  rw [isPosition_iff]
  refine ⟨Nat.toDigits_ne_nil, fun c => isDigit_of_mem_toDigits, ?_, ?_⟩
  · by_cases hn : n = 0
    · subst hn
      exact .inl rfl
    · exact .inr (head?_toDigits_ne_zero hn)
  · rw [digitsValue, Nat.ofDigitChars_ten_toDigits]
    exact h

theorem ofSegment_eq_index_iff {segment : List Char} {n : Nat} :
    ofSegment segment = .index n ↔ n < 2 ^ 64 ∧ segment = Nat.toDigits 10 n := by
  constructor
  · intro h
    unfold ofSegment at h
    split at h
    · rename_i hposition
      obtain ⟨hne, hdigits, hzero, hlt⟩ := isPosition_iff.mp hposition
      obtain rfl := index.inj h
      exact ⟨hlt, (toDigits_digitsValue hne hdigits hzero).symm⟩
    · cases h
  · rintro ⟨hlt, rfl⟩
    rw [ofSegment, if_pos (isPosition_toDigits hlt), digitsValue, Nat.ofDigitChars_ten_toDigits]

end Step

theorem pathText_stepsOf (path : String) : pathText (stepsOf path) = path := by
  have htexts : (stepsOf path).map (fun step => step.text.toList) = pieces '/' path.toList := by
    rw [stepsOf, List.map_map]
    conv_rhs => rw [← List.map_id (pieces '/' path.toList)]
    apply List.map_congr_left
    intro piece _
    rw [Function.comp_apply, Step.text_ofSegment, String.toList_ofList, id]
  rw [pathText, htexts, joinPieces_pieces, String.ofList_toList]

namespace SlashedPath

variable {source : String} {path : SlashedPath}

lemma segmentsFrom_of_not_mem {texts : List (List Char)} (h : [] ∉ texts) (number : Nat) :
    segmentsFrom number texts = .ok (texts.map segmentOf) := by
  induction texts generalizing number with
  | nil => rfl
  | cons piece rest ih =>
    obtain ⟨hpiece, hrest⟩ := not_or.mp (mt List.mem_cons.mpr h)
    have hne : piece.isEmpty = false := by simpa using Ne.symm hpiece
    simp only [segmentsFrom, hne, ih hrest]
    rfl

lemma segmentsFrom_of_empty {before : List (List Char)} (h : [] ∉ before)
    (rest : List (List Char)) (number : Nat) :
    segmentsFrom number (before ++ [] :: rest) = .error (.emptySegment (number + before.length)) := by
  induction before generalizing number with
  | nil => rfl
  | cons piece before ih =>
    obtain ⟨hpiece, hbefore⟩ := not_or.mp (mt List.mem_cons.mpr h)
    have hne : piece.isEmpty = false := by simpa using Ne.symm hpiece
    simp only [List.cons_append, segmentsFrom, hne, ih hbefore, List.length_cons, Nat.add_assoc,
      Nat.add_comm 1]
    rfl

theorem parse_of_pieces (hblank : isAllBlank source.toList = false)
    (h : [] ∉ pieces '/' source.toList) :
    parse source = .ok ⟨source, (pieces '/' source.toList).map segmentOf⟩ := by
  simp only [parse, hblank, segmentsFrom_of_not_mem h]
  rfl

lemma parse_of_empty (hblank : isAllBlank source.toList = false)
    {before rest : List (List Char)} (hpieces : pieces '/' source.toList = before ++ [] :: rest)
    (h : [] ∉ before) : parse source = .error (.emptySegment (before.length + 1)) := by
  simp only [parse, hblank, hpieces, segmentsFrom_of_empty h, Nat.add_comm 1]
  rfl

/-- What is accepted is neither blank nor has it an empty piece. -/
theorem exists_parse_iff : (∃ path, parse source = .ok path) ↔
    isAllBlank source.toList = false ∧ [] ∉ pieces '/' source.toList := by
  constructor
  · rintro ⟨path, h⟩
    have hblank : isAllBlank source.toList = false := by
      by_contra hall
      rw [Bool.not_eq_false] at hall
      simp only [parse, hall, if_true] at h
      cases h
    refine ⟨hblank, fun hempty => ?_⟩
    obtain ⟨before, rest, hpieces, hbefore⟩ := List.eq_append_cons_of_mem hempty
    rw [parse_of_empty hblank hpieces hbefore] at h
    cases h
  · rintro ⟨hblank, hempty⟩
    exact ⟨_, parse_of_pieces hblank hempty⟩

lemma parse_eq_error_iff (hblank : isAllBlank source.toList = false) {fault : ExpressionFault} :
    parse source = .error fault ↔
      ∃ before rest, pieces '/' source.toList = before ++ [] :: rest ∧ [] ∉ before ∧
        fault = .emptySegment (before.length + 1) := by
  constructor
  · intro h
    by_cases hempty : [] ∈ pieces '/' source.toList
    · obtain ⟨before, rest, hpieces, hbefore⟩ := List.eq_append_cons_of_mem hempty
      rw [parse_of_empty hblank hpieces hbefore] at h
      exact ⟨before, rest, hpieces, hbefore, (Except.error.inj h).symm⟩
    · rw [parse_of_pieces hblank hempty] at h
      cases h
  · rintro ⟨before, rest, hpieces, hbefore, rfl⟩
    exact parse_of_empty hblank hpieces hbefore

lemma segmentText_segmentOf (piece : List Char) : segmentText (segmentOf piece) = piece := by
  unfold segmentOf
  split
  · rename_i hstar
    exact hstar.symm
  · rw [segmentText, Step.text_ofSegment, String.toList_ofList]

lemma render_map_segmentOf (texts : List (List Char)) :
    render (texts.map segmentOf) = joinPieces ['/'] texts := by
  rw [render, List.map_map]
  congr 1
  conv_rhs => rw [← List.map_id texts]
  exact List.map_congr_left fun piece _ => segmentText_segmentOf piece

theorem render_of_parse (h : parse source = .ok path) : render path.plan = source.toList := by
  rw [plan_of_parse h, render_map_segmentOf, joinPieces_pieces]

lemma segmentOf_eq_wildcard_iff {piece : List Char} : segmentOf piece = .wildcard ↔ piece = ['*'] := by
  unfold segmentOf
  split <;> simp_all

lemma segmentOf_eq_index_iff {piece : List Char} {n : Nat} :
    segmentOf piece = .step (.index n) ↔ n < 2 ^ 64 ∧ piece = Nat.toDigits 10 n := by
  rw [← Step.ofSegment_eq_index_iff]
  unfold segmentOf
  split
  · rename_i hstar
    subst hstar
    simp [Step.ofSegment, Step.isPosition]
  · exact ⟨fun h => Segment.step.inj h, fun h => by rw [h]⟩

lemma getElem?_plan_eq_some_iff (h : parse source = .ok path) {i : Nat} {segment : Segment} :
    path.plan[i]? = some segment ↔
      ∃ piece, (pieces '/' source.toList)[i]? = some piece ∧ segmentOf piece = segment := by
  rw [plan_of_parse h, List.getElem?_map, Option.map_eq_some_iff]

/-- An expression is accepted when it is not blank and has no empty piece, and else the fault names
the first one. Nothing of its text is lost: the plan gives it back, so that no other expression has
the same plan, and it has wildcards for stars and positions for decimals of words. Of any text the
steps give it back. -/
theorem parse_keeps_text (source : String) :
    ((∃ path, parse source = .ok path) ↔
      isAllBlank source.toList = false ∧ [] ∉ pieces '/' source.toList) ∧
    (isAllBlank source.toList = false → ∀ fault, parse source = .error fault ↔
      ∃ before rest, pieces '/' source.toList = before ++ [] :: rest ∧ [] ∉ before ∧
        fault = .emptySegment (before.length + 1)) ∧
    (∀ path, parse source = .ok path →
      String.ofList (render path.plan) = source ∧
      (∀ other otherPath, parse other = .ok otherPath → otherPath.plan = path.plan →
        other = source) ∧
      ∀ i : Nat, (path.plan[i]? = some .wildcard ↔ (pieces '/' source.toList)[i]? = some ['*']) ∧
        ∀ n, path.plan[i]? = some (.step (.index n)) ↔
          n < 2 ^ 64 ∧ (pieces '/' source.toList)[i]? = some (Nat.toDigits 10 n)) ∧
    pathText (stepsOf source) = source := by
  refine ⟨exists_parse_iff, fun hblank fault => parse_eq_error_iff hblank, fun path h => ?_,
    pathText_stepsOf source⟩
  have hrender := render_of_parse h
  refine ⟨by rw [hrender, String.ofList_toList], fun other otherPath hother hplan => ?_,
    fun i => ⟨?_, fun n => ?_⟩⟩
  · apply String.toList_injective
    rw [← render_of_parse hother, hplan, hrender]
  · simp only [getElem?_plan_eq_some_iff h, segmentOf_eq_wildcard_iff, exists_eq_right]
  · simp only [getElem?_plan_eq_some_iff h, segmentOf_eq_index_iff]
    constructor
    · rintro ⟨piece, hpiece, hlt, rfl⟩
      exact ⟨hlt, hpiece⟩
    · rintro ⟨hlt, hpiece⟩
      exact ⟨_, hpiece, hlt, rfl⟩

/-- A code with leading zeros is a name and one without them a position; a second slash in a row
leaves an empty piece. -/
theorem parse_keeps_text_codes :
    (∃ path, parse "codes/007/*/7" = .ok path ∧
      String.ofList (render path.plan) = "codes/007/*/7" ∧
      path.plan[1]? ≠ some (.step (.index 7)) ∧ path.plan[2]? = some .wildcard ∧
      path.plan[3]? = some (.step (.index 7))) ∧
    parse "codes//7/" = .error (.emptySegment 2) ∧ pathText (stepsOf "codes//7/") = "codes//7/" := by
  obtain ⟨haccepted, -, hkept, -⟩ := parse_keeps_text "codes/007/*/7"
  obtain ⟨path, hpath⟩ := haccepted.mpr ⟨by decide, by decide⟩
  obtain ⟨htext, -, hsegments⟩ := hkept path hpath
  obtain ⟨-, hrefused, -, hsteps⟩ := parse_keeps_text "codes//7/"
  refine ⟨⟨path, hpath, htext, fun h => ?_, (hsegments 2).1.mpr (by decide),
    ((hsegments 3).2 7).mpr ⟨by decide, by decide⟩⟩, ?_, hsteps⟩
  · exact absurd (((hsegments 1).2 7).mp h).2 (by decide)
  · exact (hrefused (by decide) _).mpr ⟨["codes".toList], _, rfl, by decide, rfl⟩

end SlashedPath

end RecordMapping

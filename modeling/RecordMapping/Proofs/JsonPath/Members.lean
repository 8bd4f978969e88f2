import RecordMapping.Proofs.Calendar.Stored
import RecordMapping.Proofs.JsonPath.Grammar
import RecordMapping.Proofs.JsonPath.ReadBack
import RecordMapping.Proofs.Plan.Texts

namespace RecordMapping

open Normalized JsonPath

/-- Letters, digits and the low line, and all that is not blank beyond ASCII. -/
def isIdentifierChar (c : Char) : Bool :=
  c.isAlphanum || c == '_' || 128 ≤ c.toNat && !isBlank c

/-- Whether a text is a name of such characters that does not start with a digit. -/
def isIdentifier : List Char → Bool
  | [] => false
  | c :: rest => !c.isDigit && (c :: rest).all isIdentifierChar

section

variable {c d : Char} {name : List Char}

lemma ne_of_isIdentifierChar (h : isIdentifierChar c) (hd : isIdentifierChar d = false) :
    c ≠ d := by
  rintro rfl
  rw [h] at hd
  cases hd

lemma not_isBlank_of_isIdentifierChar (h : isIdentifierChar c) : isBlank c = false := by
  unfold isIdentifierChar at h
  simp only [Bool.or_eq_true, Bool.and_eq_true, beq_iff_eq, Bool.not_eq_true'] at h
  obtain (halphanum | rfl) | ⟨-, hblank⟩ := h
  · have hrange : 48 ≤ c.toNat ∧ c.toNat ≤ 122 := by
      simp only [Char.isAlphanum, Char.isAlpha, Char.isUpper, Char.isLower, Char.isDigit,
        Bool.or_eq_true, Bool.and_eq_true, decide_eq_true_eq, UInt32.le_iff_toNat_le,
        ge_iff_le] at halphanum
      change ((65 ≤ c.toNat ∧ c.toNat ≤ 90) ∨ 97 ≤ c.toNat ∧ c.toNat ≤ 122) ∨
        48 ≤ c.toNat ∧ c.toNat ≤ 57 at halphanum
      omega
    simp [isBlank]
    omega
  · decide
  · exact hblank

lemma continuesWord_of_isIdentifierChar (h : isIdentifierChar c) : continuesWord c := by
  have hpunctuation : isPunctuation c = false :=
    not_isPunctuation_of (by simp [punctuation, isIdentifierChar]) h
  have hroot : c ≠ '$' := ne_of_isIdentifierChar h (by decide)
  simp [continuesWord, continuesRoot, hpunctuation, not_isBlank_of_isIdentifierChar h, hroot]

lemma isNameChar_of_isIdentifierChar (h : isIdentifierChar c) : isNameChar c := by
  have hdot : c ≠ '.' := ne_of_isIdentifierChar h (by decide)
  have hbracket : c ≠ '[' := ne_of_isIdentifierChar h (by decide)
  simp [isNameChar, hdot, hbracket]

lemma isIdentifier_iff : isIdentifier name ↔
    ∃ c rest, name = c :: rest ∧ c.isDigit = false ∧ ∀ d ∈ c :: rest, isIdentifierChar d := by
  cases name with
  | nil => simp [isIdentifier]
  | cons c rest => simp [isIdentifier]

lemma isIdentifierChar_of_mem (h : isIdentifier name) (hd : d ∈ name) : isIdentifierChar d := by
  obtain ⟨c, rest, rfl, -, hall⟩ := isIdentifier_iff.mp h
  exact hall d hd

lemma ne_nil_of_isIdentifier (h : isIdentifier name) : name ≠ [] := by
  obtain ⟨c, rest, rfl, -, -⟩ := isIdentifier_iff.mp h
  exact List.cons_ne_nil c rest

lemma not_mem_of_isIdentifier (h : isIdentifier name) (hd : isIdentifierChar d = false) :
    d ∉ name :=
  fun hmem => ne_of_isIdentifierChar (isIdentifierChar_of_mem h hmem) hd rfl

end

namespace Plan

def members (names : List (List Char)) : Plan :=
  names.map fun name => .step (.key (String.ofList name))

lemma members_eq_steps (names : List (List Char)) :
    members names = (names.map fun name => Step.key (String.ofList name)).map .step := by
  rw [List.map_map]
  rfl

lemma hasWildcard_members (names : List (List Char)) : (members names).hasWildcard = false := by
  induction names with
  | nil => rfl
  | cons name rest ih =>
    rw [members, List.map_cons, hasWildcard_step]
    exact ih

lemma reach_members (names : List (List Char)) (value : Json) :
    (members names).reach [value] =
      (value.find? (names.map fun name => .key (String.ofList name))).toList := by
  induction names generalizing value with
  | nil => rfl
  | cons name rest ih =>
    have hchild : (Segment.step (.key (String.ofList name))).reach value =
        (value.child? (.key (String.ofList name))).toList := by
      cases value <;> rfl
    rw [members, List.map_cons, reach_cons, List.flatMap_singleton, hchild, List.map_cons,
      Json.find?_cons]
    cases value.child? (.key (String.ofList name)) with
    | none => exact reach_nil _
    | some child => exact ih child

end Plan

namespace SlashedPath

lemma segmentOf_identifier {name : List Char} (h : isIdentifier name) :
    segmentOf name = .step (.key (String.ofList name)) := by
  obtain ⟨c, rest, rfl, hdigit, hall⟩ := isIdentifier_iff.mp h
  have hstar : c :: rest ≠ ['*'] := by
    intro hsame
    exact ne_of_isIdentifierChar (hall c List.mem_cons_self) (by decide) (List.cons.inj hsame).1
  have hposition : Step.isPosition (c :: rest) = false := by
    simp [Step.isPosition, hdigit]
  rw [segmentOf, if_neg hstar, Step.ofSegment, hposition]
  rfl

theorem parse_identifiers {names : List (List Char)} (hne : names ≠ [])
    (h : ∀ name ∈ names, isIdentifier name) {source : String}
    (hsource : source.toList = ['/'].intercalate names) :
    parse source = .ok ⟨source, Plan.members names⟩ := by
  have hpieces : pieces '/' source.toList = names := by
    rw [hsource, pieces_intercalate hne]
    exact fun name hname => not_mem_of_isIdentifier (h name hname) (by decide)
  have hblank : isAllBlank source.toList = false := by
    by_contra hall
    rw [Bool.not_eq_false, isAllBlank, List.all_eq_true] at hall
    obtain ⟨name, rest, rfl⟩ := List.exists_cons_of_ne_nil hne
    obtain ⟨c, more, hname⟩ := List.exists_cons_of_ne_nil
      (ne_nil_of_isIdentifier (h name List.mem_cons_self))
    have hmem : c ∈ source.toList := by
      rw [hsource, hname]
      cases rest <;> simp
    have hc := isIdentifierChar_of_mem (h name List.mem_cons_self) (hname ▸ List.mem_cons_self)
    have hnot := not_isBlank_of_isIdentifierChar hc
    rw [hall c hmem] at hnot
    cases hnot
  have hempty : [] ∉ pieces '/' source.toList := by
    rw [hpieces]
    exact fun hmem => ne_nil_of_isIdentifier (h [] hmem) rfl
  have hplan : (pieces '/' source.toList).map segmentOf = Plan.members names := by
    rw [hpieces]
    exact List.map_congr_left fun name hname => segmentOf_identifier (h name hname)
  rw [parse_of_pieces hblank hempty, hplan]

end SlashedPath

namespace PathQuery

variable {names : List (List Char)}

def dottedForms (names : List (List Char)) : List Form := names.map .dotted

lemma valid_dotted {name : List Char} (h : isIdentifier name) : (Form.dotted name).Valid := by
  obtain ⟨c, rest, rfl, -, hall⟩ := isIdentifier_iff.mp h
  exact .dotted (ne_of_isIdentifierChar (hall c List.mem_cons_self) (by decide)) fun d hd =>
    isNameChar_of_isIdentifierChar (hall d hd)

lemma segment_dottedForms (names : List (List Char)) :
    (dottedForms names).map Form.segment = Plan.members names := by
  rw [dottedForms, List.map_map]
  rfl

lemma plan?_identifiers (h : ∀ name ∈ names, isIdentifier name) :
    Normalized.plan? ('$' :: (dottedForms names).flatMap Form.text) =
      some (Plan.members names) := by
  refine plan?_eq_some_iff.mpr ⟨dottedForms names, ⟨?_, rfl, (segment_dottedForms names).symm⟩, ?_⟩
  · intro form hform
    obtain ⟨name, hname, rfl⟩ := List.mem_map.mp hform
    exact valid_dotted (h name hname)
  · intro form hform
    obtain ⟨name, -, rfl⟩ := List.mem_map.mp hform
    trivial

lemma tokens_identifier {name rest : List Char} (h : isIdentifier name) (hrest : GoesOn rest) :
    tokens ((Form.dotted name).text ++ rest) = .dot :: .word name :: tokens rest := by
  have hdot : tokens ((Form.dotted name).text ++ rest) = .dot :: tokens (name ++ rest) :=
    tokens_of_some rfl
  rw [hdot, tokens_word (ne_nil_of_isIdentifier h)]
  · exact fun d hd => continuesWord_of_isIdentifierChar (isIdentifierChar_of_mem h hd)
  · intro d hd
    have hchar := isIdentifierChar_of_mem h (List.mem_of_mem_head? hd)
    exact not_or.mpr ⟨ne_of_isIdentifierChar hchar (by decide),
      ne_of_isIdentifierChar hchar (by decide)⟩
  · intro d hd
    obtain rfl | rfl := hrest d hd <;> rfl

lemma readSteps?_identifiers (h : ∀ name ∈ names, isIdentifier name) {fuel : ℕ}
    (hfuel : names.length < fuel) :
    readSteps? fuel (tokens ((dottedForms names).flatMap Form.text)) =
      some ((dottedForms names).flatMap Form.instructions, []) := by
  induction names generalizing fuel with
  | nil =>
    obtain ⟨fuel, rfl⟩ : ∃ less, fuel = less + 1 := ⟨fuel - 1, by omega⟩
    rfl
  | cons name rest ih =>
    obtain ⟨hname, hrest⟩ := List.forall_mem_cons.mp h
    rw [List.length_cons] at hfuel
    obtain ⟨fuel, rfl⟩ : ∃ less, fuel = less + 2 := ⟨fuel - 2, by omega⟩
    have htokens : tokens ((dottedForms (name :: rest)).flatMap Form.text) =
        .dot :: .word name :: tokens ((dottedForms rest).flatMap Form.text) :=
      tokens_identifier hname (goesOn_forms (dottedForms rest))
    have hmore : readSteps? (fuel + 1) (tokens ((dottedForms rest).flatMap Form.text)) =
        some ((dottedForms rest).flatMap Form.instructions, []) := ih hrest (by omega)
    rw [htokens, readSteps?]
    simp only [readDotted?, Option.bind_eq_bind, Option.bind_some, hmore]
    rfl

lemma length_le_tokens (h : ∀ name ∈ names, isIdentifier name) :
    names.length ≤ (tokens ((dottedForms names).flatMap Form.text)).length := by
  induction names with
  | nil => exact Nat.zero_le _
  | cons name rest ih =>
    obtain ⟨hname, hrest⟩ := List.forall_mem_cons.mp h
    have htokens : tokens ((dottedForms (name :: rest)).flatMap Form.text) =
        .dot :: .word name :: tokens ((dottedForms rest).flatMap Form.text) :=
      tokens_identifier hname (goesOn_forms (dottedForms rest))
    have hmore := ih hrest
    rw [htokens, List.length_cons, List.length_cons, List.length_cons]
    omega

lemma read?_identifiers (h : ∀ name ∈ names, isIdentifier name) :
    JsonPath.read? ('$' :: (dottedForms names).flatMap Form.text) =
      some ((dottedForms names).flatMap Form.instructions) := by
  have hroot : tokens ('$' :: (dottedForms names).flatMap Form.text) =
      .root :: tokens ((dottedForms names).flatMap Form.text) := by
    refine tokens_of_some ?_
    cases names <;> rfl
  have hfuel : names.length < 4 * (tokens ((dottedForms names).flatMap Form.text)).length + 4 := by
    have hlength := length_le_tokens h
    omega
  rw [JsonPath.read?, hroot]
  simp only [readSteps?_identifiers h hfuel, Option.map_some]

def dotted (source : String) (names : List (List Char)) : PathQuery where
  source := source
  program := (dottedForms names).flatMap Form.instructions
  writable := some (Plan.members names)

theorem parse_identifiers (h : ∀ name ∈ names, isIdentifier name) {source : String}
    (hsource : source.toList = '$' :: (dottedForms names).flatMap Form.text) :
    parse source = .ok (dotted source names) := by
  have htrim : trim source.toList = '$' :: (dottedForms names).flatMap Form.text := by
    rw [hsource]
    refine trim_of_forall (List.forall_mem_cons.mpr ⟨by decide, fun c hc => ?_⟩)
    rw [dottedForms, List.flatMap_map] at hc
    obtain ⟨name, hname, hmem⟩ := List.mem_flatMap.mp hc
    obtain rfl | hc := List.mem_cons.mp hmem
    · decide
    · exact not_isBlank_of_isIdentifierChar (isIdentifierChar_of_mem (h name hname) hc)
  simp only [parse, htrim, read?_identifiers h, plan?_identifiers h]
  rw [← hsource, String.ofList_toList, hsource]
  rfl

lemma evaluate_dotted (source : String) (names : List (List Char)) (document : Json) :
    (dotted source names).evaluate document = (Plan.members names).resolve (some document) := by
  have hselect : select (dotted source names).program document =
      (document.find? (names.map fun name => .key (String.ofList name))).toList := by
    rw [dotted, select_instructions, segment_dottedForms, Plan.reach_members]
  have hdefinite : (dotted source names).isDefinite = true := by
    simp [isDefinite, dotted, Plan.hasWildcard_members]
  rw [evaluate, hdefinite, hselect, Plan.members_eq_steps, Plan.resolve_steps]
  cases document.find? (names.map fun name => .key (String.ofList name)) with
  | none => rfl
  | some found => cases found <;> rfl

end PathQuery

/-- A path of identifiers can be read in both dialects, with slashes in one and dots in the other.
The two expressions find the same in every document, and injection through them gives the same
document or the same error. -/
theorem Expression.dialects_agree {names : List String} (hne : names ≠ [])
    (h : ∀ name ∈ names, isIdentifier name.toList) :
    ∃ slashed dotted : Expression,
      parse .simple ("/".intercalate names) = .ok slashed ∧
      parse .jsonPath ("$" ++ String.join (names.map ("." ++ ·))) = .ok dotted ∧
      (∀ document, slashed.evaluate document = dotted.evaluate document) ∧
      ∀ values cardinality document,
        slashed.inject values cardinality document = dotted.inject values cardinality document := by
  have htexts : ∀ text ∈ names.map String.toList, isIdentifier text := by
    simpa using h
  have hslashed : parse .simple ("/".intercalate names) =
      .ok (.slashed ⟨"/".intercalate names, Plan.members (names.map String.toList)⟩) := by
    have hsource : ("/".intercalate names).toList =
        ['/'].intercalate (names.map String.toList) := by
      rw [String.toList_intercalate]
      rfl
    simp only [parse, SlashedPath.parse_identifiers (by simpa using hne) htexts hsource]
  have hdotted : parse .jsonPath ("$" ++ String.join (names.map ("." ++ ·))) =
      .ok (.jsonPath (.dotted ("$" ++ String.join (names.map ("." ++ ·)))
        (names.map String.toList))) := by
    have hsource : ("$" ++ String.join (names.map ("." ++ ·))).toList =
        '$' :: (PathQuery.dottedForms (names.map String.toList)).flatMap Form.text := by
      simp [PathQuery.dottedForms, Form.text, List.flatMap_map]
    simp only [parse, PathQuery.parse_identifiers htexts hsource]
  refine ⟨_, _, hslashed, hdotted, fun document => ?_, fun values cardinality document => ?_⟩
  · exact (PathQuery.evaluate_dotted _ _ document).symm
  · simp only [inject, plan?, PathQuery.dotted]

/-- Both find the items of a list at the end, and both fail at a list on the way. -/
theorem Expression.dialects_agree_venue :
    ∃ slashed dotted : Expression,
      parse .simple "venue/halls_2" = .ok slashed ∧ parse .jsonPath "$.venue.halls_2" = .ok dotted ∧
      slashed.evaluate (.object [("venue", .object [("halls_2", .list [.null])])]) = [.null] ∧
      dotted.evaluate (.object [("venue", .object [("halls_2", .list [.null])])]) = [.null] ∧
      ∃ error, slashed.inject [.null] .unlimited (.object [("venue", .list [])]) = .error error ∧
        dotted.inject [.null] .unlimited (.object [("venue", .list [])]) = .error error := by
  have hnames : ∀ name ∈ ["venue", "halls_2"], isIdentifier name.toList := by decide
  obtain ⟨slashed, dotted, hslashed, hdotted, hevaluate, hinject⟩ :=
    dialects_agree (List.cons_ne_nil _ _) hnames
  obtain rfl := Except.ok.inj hslashed
  exact ⟨_, dotted, hslashed, hdotted, rfl, (hevaluate _).symm, _, rfl, (hinject _ _ _).symm⟩

end RecordMapping

import RecordMapping.Proofs.Calendar.Stored

/-!
# Shapes of texts with dates

Which part of a text an item of a layout takes depends only on where digits stand, not on which ones
they are. Main statement: a layout that does not fit the shape of a text, where all digits are the
same, does not read the text.
-/

namespace RecordMapping

namespace Calendar

/-- A character, with the same digit for every digit. -/
def shapeChar (c : Char) : Char := if c.isDigit then '0' else c

def shape (text : List Char) : List Char := text.map shapeChar

variable {text rest : List Char}

lemma isDigit_shapeChar (c : Char) : (shapeChar c).isDigit = c.isDigit := by
  unfold shapeChar
  split_ifs with h
  · rw [h]
    rfl
  · rfl

lemma isBlank_shapeChar (c : Char) : isBlank (shapeChar c) = isBlank c := by
  unfold shapeChar
  split_ifs with h
  · rw [Json.isBlank_of_isNumeralChar (c := c) (by simp [isNumeralChar, h])]
    rfl
  · rfl

lemma shapeChar_eq_iff {c d : Char} (hd : d.isDigit = false) : shapeChar c = d ↔ c = d := by
  unfold shapeChar
  split_ifs with h
  · constructor
    · rintro rfl
      cases hd
    · rintro rfl
      rw [h] at hd
      cases hd
  · rfl

lemma length_shape (text : List Char) : (shape text).length = text.length := List.length_map _

lemma drop_shape (n : ℕ) (text : List Char) : (shape text).drop n = shape (text.drop n) :=
  List.map_drop.symm

lemma digitsValue_shape {digits : List Char} (h : ∀ c ∈ digits, c.isDigit) :
    digitsValue (shape digits) = 0 := by
  have hzeros : shape digits = List.replicate digits.length '0' := by
    rw [shape, List.map_eq_replicate_iff]
    intro c hc
    rw [shapeChar, if_pos (h c hc)]
  rw [hzeros, digitsValue, Nat.ofDigitChars_replicate_zero, Nat.mul_zero]

lemma takeWhile_shape (text : List Char) :
    (shape text).takeWhile Char.isDigit = shape (text.takeWhile Char.isDigit) := by
  have hdigit : Char.isDigit ∘ shapeChar = Char.isDigit := funext isDigit_shapeChar
  rw [shape, List.takeWhile_map, hdigit, shape]

lemma number?_shape {least most n : ℕ} (h : number? least most text = some (n, rest)) :
    number? least most (shape text) = some (0, shape rest) := by
  unfold number? at h ⊢
  dsimp only at h ⊢
  have hdigits : ((shape text).take most).takeWhile Char.isDigit =
      shape ((text.take most).takeWhile Char.isDigit) := by
    rw [← takeWhile_shape, shape, ← List.map_take, shape]
  split_ifs at h with hshort
  obtain ⟨-, rfl⟩ := Prod.mk.inj (Option.some.inj h)
  rw [hdigits, digitsValue_shape (fun c hc => List.mem_takeWhile_imp hc), length_shape,
    if_neg hshort, drop_shape]

lemma skipBlank_shape (text : List Char) : skipBlank (shape text) = shape (skipBlank text) := by
  have hblank : isBlank ∘ shapeChar = isBlank := funext isBlank_shapeChar
  rw [skipBlank, shape, List.dropWhile_map, hblank, shape, skipBlank]

lemma year?_shape {n : ℤ} (h : year? text = some (n, rest)) :
    ∃ m, year? (shape text) = some (m, shape rest) := by
  have hlong {text : List Char} {n : ℕ} (h : longNumber? 1 text = some (n, rest)) :
      longNumber? 1 (shape text) = some (0, shape rest) := by
    unfold longNumber? at h ⊢
    rw [length_shape]
    split at h
    · rename_i hnumber
      split_ifs at h
      obtain ⟨rfl, rfl⟩ := Prod.mk.inj (Option.some.inj h)
      rw [number?_shape hnumber]
      rfl
    · cases h
  unfold year? at h
  split at h
  · obtain ⟨⟨n, after⟩, hn, hfound⟩ := Option.map_eq_some_iff.mp h
    obtain ⟨-, rfl⟩ := Prod.mk.inj hfound
    exact ⟨_, congrArg (Option.map _) (hlong hn)⟩
  · obtain ⟨⟨n, after⟩, hn, hfound⟩ := Option.map_eq_some_iff.mp h
    obtain ⟨-, rfl⟩ := Prod.mk.inj hfound
    exact ⟨_, congrArg (Option.map _) (hlong hn)⟩
  · rename_i hminus hplus
    obtain ⟨⟨n, after⟩, hn, hfound⟩ := Option.map_eq_some_iff.mp h
    obtain ⟨-, rfl⟩ := Prod.mk.inj hfound
    have hshape := number?_shape hn
    cases text with
    | nil => exact absurd hn (by simp [number?])
    | cons c text =>
      have hc : shapeChar c ≠ '-' ∧ shapeChar c ≠ '+' := by
        rw [ne_eq, ne_eq, shapeChar_eq_iff (by decide), shapeChar_eq_iff (by decide)]
        exact ⟨fun h => hminus text (h ▸ rfl), fun h => hplus text (h ▸ rfl)⟩
      rw [shape, List.map_cons] at hshape ⊢
      simp [year?, hc, hshape]

lemma fraction?_shape {n : ℕ} (h : fraction? text = some (n, rest)) :
    ∃ m, fraction? (shape text) = some (m, shape rest) := by
  unfold fraction? at h ⊢
  dsimp only at h ⊢
  split_ifs at h with hempty
  obtain ⟨-, rfl⟩ := Prod.mk.inj (Option.some.inj h)
  have hshape : (shape (text.takeWhile Char.isDigit)).isEmpty = false := by
    simpa [shape] using hempty
  rw [takeWhile_shape, hshape]
  rw [length_shape, drop_shape]
  exact ⟨_, rfl⟩

lemma word?_shape {word : List Char} (hword : ∀ c ∈ word, c.isDigit = false) (text : List Char) :
    word? word (shape text) = (word? word text).map shape := by
  induction word generalizing text with
  | nil => rfl
  | cons c word ih =>
    obtain ⟨hc, hothers⟩ := List.forall_mem_cons.mp hword
    cases text with
    | nil => rfl
    | cons d text =>
      have hlower : (shapeChar d).toLower = c ↔ d.toLower = c := by
        unfold shapeChar
        split_ifs with hd
        · rw [toLower_of_le (Json.toNat_of_isDigit hd).2]
          constructor
          · rintro rfl
            cases hc
          · rintro rfl
            rw [hd] at hc
            cases hc
        · rfl
      simp only [shape, List.map_cons, word?, hlower]
      split_ifs
      · exact ih hothers text
      · rfl

lemma firstWord?_shape {words : List (List Char)}
    (hwords : ∀ word ∈ words, ∀ c ∈ word, c.isDigit = false) (place : ℕ) (text : List Char) :
    firstWord? place words (shape text) =
      (firstWord? place words text).map fun found => (found.1, shape found.2) := by
  induction words generalizing place with
  | nil => rfl
  | cons word words ih =>
    obtain ⟨hword, hothers⟩ := List.forall_mem_cons.mp hwords
    rw [firstWord?, firstWord?, word?_shape hword]
    cases word? word text with
    | some rest => rfl
    | none => exact ih hothers _

lemma monthNames_not_digit :
    ∀ name ∈ monthNames, (∀ c ∈ name.1, c.isDigit = false) ∧ ∀ c ∈ name.2, c.isDigit = false := by
  simp [monthNames]

lemma shortMonth?_shape (text : List Char) :
    shortMonth? (shape text) =
      (shortMonth? text).map fun found => (found.1, shape found.2) := by
  apply firstWord?_shape
  intro word hword
  obtain ⟨name, hname, rfl⟩ := List.mem_map.mp hword
  exact (monthNames_not_digit name hname).1

lemma longMonth?_shape (text : List Char) :
    longMonth? (shape text) =
      (longMonth? text).map fun found => (found.1, shape found.2) := by
  unfold longMonth?
  rw [shortMonth?_shape]
  cases shortMonth? text with
  | none => rfl
  | some found =>
    obtain ⟨month, rest⟩ := found
    cases hname : monthNames[month - 1]? with
    | none => simp [hname]
    | some name =>
      have htail := (monthNames_not_digit name (List.mem_of_getElem? hname)).2
      simp only [hname, Option.map_some, Option.bind_eq_bind, Option.bind_some, word?_shape htail]
      cases word? name.2 rest <;> rfl

/-- What an item leaves of the shape of a text, whatever the bounds of its number. -/
def Item.skip? (item : Item) (text : List Char) : Option (List Char) :=
  match item with
  | .literal c => char? (shapeChar c) text
  | .blank => some (skipBlank text)
  | .year => (year? (skipBlank text)).map Prod.snd
  | .month | .day | .hour | .minute | .second =>
    (number? 1 2 (skipBlank text)).map Prod.snd
  | .fraction =>
    match text with
    | '.' :: digits => (fraction? digits).map Prod.snd
    | _ => some text
  | .shortMonthName => (shortMonth? text).map Prod.snd
  | .longMonthName => (longMonth? text).map Prod.snd
  | .offset => none

/-- Whether a layout may read a text of a shape. An offset takes at least one character, and what
follows it does not matter. -/
def Layout.fits : Layout → List Char → Bool
  | [], text => text.isEmpty
  | .offset :: _, text => !(skipBlank text).isEmpty
  | item :: layout, text =>
    match item.skip? text with
    | some rest => Layout.fits layout rest
    | none => false

variable {parts found : Parts} {item : Item} {layout : Layout}

lemma shortNumber?_shape {low high n : ℕ} (h : shortNumber? low high text = some (n, rest)) :
    (number? 1 2 (skipBlank (shape text))).map Prod.snd = some (shape rest) := by
  obtain ⟨⟨m, after⟩, hnumber, hbounds⟩ := Option.bind_eq_some_iff.mp h
  obtain ⟨-, hfound⟩ := Option.ite_none_right_eq_some.mp hbounds
  obtain ⟨-, rfl⟩ := Prod.mk.inj (Option.some.inj hfound)
  rw [skipBlank_shape, number?_shape hnumber]
  rfl

/-- What an item takes of a text it also takes of its shape. -/
lemma skip?_shape (hitem : item ≠ .offset) (h : item.take? parts text = some (found, rest)) :
    item.skip? (shape text) = some (shape rest) := by
  cases item with
  | literal c =>
    obtain ⟨after, hchar, hfound⟩ := Option.map_eq_some_iff.mp h
    obtain ⟨-, rfl⟩ := Prod.mk.inj hfound
    cases text with
    | nil => cases hchar
    | cons d text =>
      obtain ⟨rfl, hrest⟩ := Option.ite_none_right_eq_some.mp hchar
      obtain rfl := Option.some.inj hrest
      exact if_pos rfl
  | blank =>
    obtain ⟨-, rfl⟩ := Prod.mk.inj (Option.some.inj h)
    rw [Item.skip?, skipBlank_shape]
  | year =>
    obtain ⟨⟨n, after⟩, hyear, hfound⟩ := Option.bind_eq_some_iff.mp h
    obtain ⟨-, rfl⟩ := Prod.mk.inj (Option.some.inj hfound)
    obtain ⟨m, hshape⟩ := year?_shape hyear
    rw [Item.skip?, skipBlank_shape, hshape]
    rfl
  | month | day | hour | minute | second =>
    obtain ⟨⟨n, after⟩, hnumber, hfound⟩ := Option.bind_eq_some_iff.mp h
    obtain ⟨-, rfl⟩ := Prod.mk.inj (Option.some.inj hfound)
    exact shortNumber?_shape hnumber
  | fraction =>
    unfold Item.take? at h
    dsimp only at h
    split at h
    · obtain ⟨⟨n, after⟩, hfraction, hfound⟩ := Option.bind_eq_some_iff.mp h
      obtain ⟨-, rfl⟩ := Prod.mk.inj (Option.some.inj hfound)
      obtain ⟨m, hshape⟩ := fraction?_shape hfraction
      exact congrArg (Option.map Prod.snd) hshape
    · rename_i hpoint
      obtain ⟨-, rfl⟩ := Prod.mk.inj (Option.some.inj h)
      cases text with
      | nil => rfl
      | cons c text =>
        have hc : shapeChar c ≠ '.' := by
          rw [ne_eq, shapeChar_eq_iff (by decide)]
          exact fun h => hpoint text (h ▸ rfl)
        simp [Item.skip?, shape, hc]
  | shortMonthName =>
    obtain ⟨⟨n, after⟩, hname, hfound⟩ := Option.bind_eq_some_iff.mp h
    obtain ⟨-, rfl⟩ := Prod.mk.inj (Option.some.inj hfound)
    rw [Item.skip?, shortMonth?_shape, hname]
    rfl
  | longMonthName =>
    obtain ⟨⟨n, after⟩, hname, hfound⟩ := Option.bind_eq_some_iff.mp h
    obtain ⟨-, rfl⟩ := Prod.mk.inj (Option.some.inj hfound)
    rw [Item.skip?, longMonth?_shape, hname]
    rfl
  | offset => exact absurd rfl hitem

lemma fits_of_read? (h : layout.read? parts text = some found) : layout.fits (shape text) := by
  induction layout generalizing parts text with
  | nil =>
    cases text with
    | nil => rfl
    | cons c text => cases h
  | cons item layout ih =>
    unfold Layout.read? at h
    split at h
    · rename_i parts' rest htake
      by_cases hoffset : item = .offset
      · subst hoffset
        cases hblank : skipBlank text with
        | nil => simp [Item.take?, hblank, offset?] at htake
        | cons c more =>
          unfold Layout.fits
          rw [skipBlank_shape, hblank]
          rfl
      · unfold Layout.fits
        split
        · rename_i heq
          cases heq
        · rename_i heq
          exact absurd (List.cons.inj heq).1 hoffset
        · rename_i heq
          obtain ⟨rfl, rfl⟩ := List.cons.inj heq
          rw [skip?_shape hoffset htake]
          exact ih h
    · cases h

end Calendar

end RecordMapping

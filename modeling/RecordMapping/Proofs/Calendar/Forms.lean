import RecordMapping.Proofs.Calendar.Shapes

namespace RecordMapping

namespace Calendar

variable {text rest : List Char}

lemma length_of_number? {least most n : ℕ} (h : number? least most text = some (n, rest)) :
    least + rest.length ≤ text.length := by
  unfold number? at h
  dsimp only at h
  have hprefix : ((text.take most).takeWhile Char.isDigit).length ≤ text.length :=
    ((List.takeWhile_prefix _).length_le).trans (List.length_take_le' _ _)
  split_ifs at h
  obtain ⟨-, rfl⟩ := Prod.mk.inj (Option.some.inj h)
  rw [List.length_drop]
  omega

lemma length_of_fixedNumber? {digits low high n : ℕ}
    (h : fixedNumber? digits low high text = some (n, rest)) :
    digits + rest.length ≤ text.length := by
  obtain ⟨⟨m, after⟩, hnumber, hbounds⟩ := Option.bind_eq_some_iff.mp h
  obtain ⟨-, hfound⟩ := Option.ite_none_right_eq_some.mp hbounds
  obtain ⟨-, rfl⟩ := Prod.mk.inj (Option.some.inj hfound)
  exact length_of_number? hnumber

lemma length_of_char? {c : Char} (h : char? c text = some rest) :
    rest.length + 1 = text.length := by
  cases text with
  | nil => cases h
  | cons d text =>
    obtain ⟨-, hrest⟩ := Option.ite_none_right_eq_some.mp h
    rw [Option.some.inj hrest, List.length_cons]

lemma length_of_timeMark? (h : timeMark? text = some rest) : rest.length + 1 = text.length := by
  cases text with
  | nil => cases h
  | cons d text =>
    obtain ⟨-, hrest⟩ := Option.ite_none_right_eq_some.mp h
    rw [Option.some.inj hrest, List.length_cons]

lemma length_of_optionalFraction? {nanos : Option ℕ}
    (h : optionalFraction? text = some (nanos, rest)) : rest.length ≤ text.length := by
  unfold optionalFraction? at h
  split at h
  · rename_i digits
    obtain ⟨⟨n, after⟩, hfraction, hfound⟩ := Option.map_eq_some_iff.mp h
    obtain ⟨-, rfl⟩ := Prod.mk.inj hfound
    unfold fraction? at hfraction
    dsimp only at hfraction
    split_ifs at hfraction
    obtain ⟨-, rfl⟩ := Prod.mk.inj (Option.some.inj hfraction)
    rw [List.length_drop, List.length_cons]
    omega
  · obtain ⟨-, rfl⟩ := Prod.mk.inj (Option.some.inj h)
    exact le_rfl

lemma length_of_timestamp? {i : Instant} (h : timestamp? text = some i) : 20 ≤ text.length := by
  obtain ⟨⟨year, afterYear⟩, hyear, h⟩ := Option.bind_eq_some_iff.mp h
  obtain ⟨beforeMonth, hhyphen, h⟩ := Option.bind_eq_some_iff.mp h
  obtain ⟨⟨month, afterMonth⟩, hmonth, h⟩ := Option.bind_eq_some_iff.mp h
  obtain ⟨beforeDay, hhyphen', h⟩ := Option.bind_eq_some_iff.mp h
  obtain ⟨⟨day, afterDay⟩, hday, h⟩ := Option.bind_eq_some_iff.mp h
  obtain ⟨beforeHour, hmark, h⟩ := Option.bind_eq_some_iff.mp h
  obtain ⟨⟨hour, afterHour⟩, hhour, h⟩ := Option.bind_eq_some_iff.mp h
  obtain ⟨beforeMinute, hcolon, h⟩ := Option.bind_eq_some_iff.mp h
  obtain ⟨⟨minute, afterMinute⟩, hminute, h⟩ := Option.bind_eq_some_iff.mp h
  obtain ⟨beforeSecond, hcolon', h⟩ := Option.bind_eq_some_iff.mp h
  obtain ⟨⟨second, afterSecond⟩, hsecond, h⟩ := Option.bind_eq_some_iff.mp h
  obtain ⟨⟨nanos, beforeOffset⟩, hfraction, h⟩ := Option.bind_eq_some_iff.mp h
  obtain ⟨⟨offset, after⟩, hoffset, -⟩ := Option.bind_eq_some_iff.mp h
  have hne : beforeOffset ≠ [] := by
    rintro rfl
    cases hoffset
  have hlast := List.length_pos_of_ne_nil hne
  have hyear := length_of_number? hyear
  have hhyphen := length_of_char? hhyphen
  have hmonth := length_of_fixedNumber? hmonth
  have hhyphen' := length_of_char? hhyphen'
  have hday := length_of_fixedNumber? hday
  have hmark := length_of_timeMark? hmark
  have hhour := length_of_fixedNumber? hhour
  have hcolon := length_of_char? hcolon
  have hminute := length_of_fixedNumber? hminute
  have hcolon' := length_of_char? hcolon'
  have hsecond := length_of_fixedNumber? hsecond
  have hfraction := length_of_optionalFraction? hfraction
  omega

lemma suffix_of_number? {least most n : ℕ} (h : number? least most text = some (n, rest)) :
    rest <:+ text := by
  unfold number? at h
  dsimp only at h
  split_ifs at h
  obtain ⟨-, rfl⟩ := Prod.mk.inj (Option.some.inj h)
  exact List.drop_suffix _ _

lemma suffix_of_word? {word : List Char} (h : word? word text = some rest) : rest <:+ text := by
  induction word generalizing text with
  | nil =>
    obtain rfl := Option.some.inj h
    exact List.suffix_rfl
  | cons c word ih =>
    cases text with
    | nil => cases h
    | cons d text =>
      obtain ⟨-, hrest⟩ := Option.ite_none_right_eq_some.mp h
      exact (ih hrest).trans (List.suffix_cons d text)

lemma suffix_of_firstWord? {words : List (List Char)} {place n : ℕ}
    (h : firstWord? place words text = some (n, rest)) : rest <:+ text := by
  induction words generalizing place with
  | nil => cases h
  | cons word words ih =>
    unfold firstWord? at h
    split at h
    · rename_i after hword
      obtain ⟨-, rfl⟩ := Prod.mk.inj (Option.some.inj h)
      exact suffix_of_word? hword
    · exact ih h

lemma suffix_of_mailWeekday? {weekday : Option ℕ}
    (h : mailWeekday? text = some (weekday, rest)) : rest <:+ text := by
  unfold mailWeekday? at h
  split at h
  · rename_i day after hname
    obtain ⟨-, rfl⟩ := Prod.mk.inj (Option.some.inj h)
    exact (List.suffix_cons _ _).trans (suffix_of_firstWord? hname)
  · cases h
  · obtain ⟨-, rfl⟩ := Prod.mk.inj (Option.some.inj h)
    exact List.suffix_rfl

lemma suffix_of_mailYear? {year : ℤ} (h : mailYear? text = some (year, rest)) : rest <:+ text := by
  obtain ⟨⟨n, after⟩, hnumber, hfound⟩ := Option.bind_eq_some_iff.mp h
  obtain ⟨-, rfl⟩ := Prod.mk.inj (Option.some.inj hfound)
  unfold longNumber? at hnumber
  split at hnumber
  · rename_i hdigits
    split_ifs at hnumber
    obtain ⟨-, rfl⟩ := Prod.mk.inj (Option.some.inj hnumber)
    exact suffix_of_number? hdigits
  · cases hnumber

lemma countP_of_blanks? {after : List Char} (h : blanks? after = some rest)
    (hafter : after <:+ text) : rest.countP isBlank + 1 ≤ text.countP isBlank := by
  cases after with
  | nil => cases h
  | cons c after =>
    obtain ⟨hblank, hrest⟩ := Option.ite_none_right_eq_some.mp h
    obtain rfl := Option.some.inj hrest
    have hskip := (List.dropWhile_suffix (l := after) isBlank).sublist.countP_le (p := isBlank)
    have hcount := hafter.sublist.countP_le (p := isBlank)
    rw [List.countP_cons_of_pos hblank] at hcount
    exact le_trans (Nat.succ_le_succ hskip) hcount

lemma countP_of_mailDate? {i : Instant} (h : mailDate? text = some i) :
    3 ≤ text.countP isBlank := by
  obtain ⟨⟨weekday, afterWeekday⟩, hweekday, h⟩ := Option.bind_eq_some_iff.mp h
  obtain ⟨⟨day, afterDay⟩, hday, h⟩ := Option.bind_eq_some_iff.mp h
  obtain ⟨beforeMonth, hmonthBlanks, h⟩ := Option.bind_eq_some_iff.mp h
  obtain ⟨⟨month, afterMonth⟩, hmonth, h⟩ := Option.bind_eq_some_iff.mp h
  obtain ⟨beforeYear, hyearBlanks, h⟩ := Option.bind_eq_some_iff.mp h
  obtain ⟨⟨year, afterYear⟩, hyear, h⟩ := Option.bind_eq_some_iff.mp h
  obtain ⟨beforeHour, hhourBlanks, -⟩ := Option.bind_eq_some_iff.mp h
  have hfirst : afterDay <:+ text :=
    (suffix_of_number? hday).trans ((List.dropWhile_suffix isBlank).trans
      ((suffix_of_mailWeekday? hweekday).trans (List.dropWhile_suffix isBlank)))
  have hmonthCount := countP_of_blanks? hmonthBlanks hfirst
  have hyearCount := countP_of_blanks? hyearBlanks (suffix_of_firstWord? hmonth)
  have hhourCount := countP_of_blanks? hhourBlanks (suffix_of_mailYear? hyear)
  omega

inductive Form where
  | timestamp
  | mail
  | zoned (layout : Layout)
  | unzoned (layout : Layout)
  | dated (layout : Layout)
  deriving DecidableEq

def forms : List Form :=
  [.timestamp, .mail] ++ zonedLayouts.map .zoned ++ localLayouts.map .unzoned ++
    dateLayouts.map .dated

namespace Form

def read? (text : List Char) : Form → Option Instant
  | .timestamp => timestamp? text
  | .mail => mailDate? text
  | .zoned layout => zoned? text layout
  | .unzoned layout => local? text layout
  | .dated layout => date? text layout

/-- Whether a form reads no text of a shape. -/
def refuses (shape : List Char) : Form → Bool
  | .timestamp => decide (shape.length < 20)
  | .mail => decide (shape.countP isBlank < 3)
  | .zoned layout | .unzoned layout | .dated layout => !layout.fits shape

/-- A form that refuses the shape of a text reads nothing from the text. -/
theorem read?_of_refuses {form : Form} (h : form.refuses (shape text)) :
    form.read? text = none := by
  have hlayout {layout : Layout} (h : (!layout.fits (shape text)) = true) :
      layout.read? Parts.none text = none := by
    cases hread : layout.read? Parts.none text with
    | none => rfl
    | some found => simp [fits_of_read? hread] at h
  cases form with
  | timestamp =>
    cases hread : timestamp? text with
    | none => exact hread
    | some i =>
      have hlong := length_of_timestamp? hread
      have hshort := of_decide_eq_true h
      rw [length_shape] at hshort
      omega
  | mail =>
    cases hread : mailDate? text with
    | none => exact hread
    | some i =>
      have hmany := countP_of_mailDate? hread
      have hfew := of_decide_eq_true h
      have hblank : isBlank ∘ shapeChar = isBlank := funext isBlank_shapeChar
      rw [shape, List.countP_map, hblank] at hfew
      omega
  | zoned layout =>
    rw [read?, zoned?, hlayout h]
    rfl
  | unzoned layout =>
    rw [read?, local?, hlayout h]
    rfl
  | dated layout =>
    rw [read?, date?, hlayout h]
    rfl

end Form

lemma instant?_eq (text : List Char) : instant? text =
    if (trim text).isEmpty then none else forms.findSome? (Form.read? (trim text)) := by
  have hchain (text : List Char) : forms.findSome? (Form.read? text) = (timestamp? text).or
      ((mailDate? text).or ((zonedLayouts.findSome? (zoned? text)).or
        ((localLayouts.findSome? (local? text)).or (dateLayouts.findSome? (date? text))))) := by
    have hstandard : [Form.timestamp, .mail].findSome? (Form.read? text) =
        (timestamp? text).or (mailDate? text) := by
      rw [List.findSome?_cons, List.findSome?_singleton, Form.read?, Form.read?]
      cases timestamp? text <;> rfl
    rw [forms, List.findSome?_append, List.findSome?_append, List.findSome?_append, hstandard,
      List.findSome?_map, List.findSome?_map, List.findSome?_map, Option.or_assoc, Option.or_assoc,
      Option.or_assoc]
    rfl
  rw [hchain]
  rfl

end Calendar

end RecordMapping

import Mathlib
import RecordMapping.Definition.Fields
import RecordMapping.Proofs.Dictionary
import RecordMapping.Proofs.Json.Formed

/-!
# Values that are taken back

A reader takes a value back if it reads it again from what was written for it. Building blocks of
readers take back what they read, texts anyway, and readers that are put together from others take
back a value when those take back its parts.
-/

namespace RecordMapping

variable {α β : Type}

/-- A value is read from what is written for it. -/
def TakesBack (read : Datum → Decoded α) (write : α → Json) (value : α) : Prop :=
  read (.ofJson (write value)) = .ok value

/-- Everything that is read is taken back. -/
def ReadsBack (read : Datum → Decoded α) (write : α → Json) : Prop :=
  ∀ datum value, read datum = .ok value → TakesBack read write value

namespace Datum

lemma ofItems_eq_map (items : List Json) : ofItems items = items.map ofJson := by
  induction items with
  | nil => rfl
  | cons item rest ih => rw [ofItems, ih, List.map_cons]

lemma ofMembers_eq_map (members : List Member) :
    ofMembers members = members.map fun member => (.string member.1, ofJson member.2) := by
  induction members with
  | nil => rfl
  | cons member rest ih => rw [ofMembers, ih, List.map_cons]

lemma toItems_eq_map (items : List Datum) : toItems items = items.map toJson := by
  induction items with
  | nil => rfl
  | cons item rest ih => rw [toItems, ih, List.map_cons]

lemma toMembers_eq_map (entries : List (Datum × Datum)) :
    toMembers entries = entries.map fun entry => (keyName entry.1.toJson, entry.2.toJson) := by
  induction entries with
  | nil => rfl
  | cons entry rest ih => rw [toMembers, ih, List.map_cons]

end Datum

lemma foldl_putMember_of_nodup {done members : List Member}
    (h : ((done ++ members).map Prod.fst).Nodup) :
    members.foldl (fun kept entry => putMember entry.1 entry.2 kept) done = done ++ members := by
  induction members generalizing done with
  | nil => simp
  | cons member rest ih =>
    rw [List.foldl_cons, putMember_of_nodup h, ih (by simpa using h)]
    simp

lemma nodup_names_foldl_putMember {done : List Member} (h : (done.map Prod.fst).Nodup)
    (members : List Member) :
    ((members.foldl (fun kept entry => putMember entry.1 entry.2 kept) done).map
      Prod.fst).Nodup := by
  induction members generalizing done with
  | nil => exact h
  | cons member rest ih => exact ih (nodup_names_putMember h _ _)

lemma forall_mem_foldl_putMember {p : Json → Prop} {done members : List Member}
    (hdone : ∀ member ∈ done, p member.2) (h : ∀ member ∈ members, p member.2) :
    ∀ member ∈ members.foldl (fun kept entry => putMember entry.1 entry.2 kept) done,
      p member.2 := by
  induction members generalizing done with
  | nil => exact hdone
  | cons first rest ih =>
    obtain ⟨hfirst, hrest⟩ := List.forall_mem_cons.mp h
    refine ih (fun member hmem => ?_) hrest
    obtain hmem | hvalue := mem_putMember hmem
    · exact hdone member hmem
    · exact hvalue ▸ hfirst

/-- A document is shown by the datum that it comes to. -/
abbrev Shown (value : Json) : Prop := TakesBack Decode.value id value

lemma shown_iff {value : Json} : Shown value ↔ (Datum.ofJson value).toJson = value := by
  rw [Shown, TakesBack, Decode.value, Except.ok.injEq]
  rfl

lemma shown_list {items : List Json} (h : ∀ item ∈ items, Shown item) : Shown (.list items) := by
  rw [shown_iff, Datum.ofJson, Datum.toJson, Datum.ofItems_eq_map, Datum.toItems_eq_map,
    List.map_map]
  exact congrArg Json.list
    ((List.map_congr_left fun item hitem => shown_iff.mp (h item hitem)).trans (List.map_id _))

lemma shown_object {members : List Member} (hnames : (members.map Prod.fst).Nodup)
    (h : ∀ member ∈ members, Shown member.2) : Shown (.object members) := by
  have hmembers : Datum.toMembers (Datum.ofMembers members) = members := by
    rw [Datum.ofMembers_eq_map, Datum.toMembers_eq_map, List.map_map]
    refine (List.map_congr_left fun member hmem => ?_).trans (List.map_id _)
    exact Prod.ext rfl (shown_iff.mp (h member hmem))
  rw [shown_iff, Datum.ofJson, Datum.toJson, hmembers]
  exact congrArg Json.object
    (foldl_putMember_of_nodup (show (([] ++ members).map Prod.fst).Nodup from hnames))

mutual

/-- What a datum shows has distinct names everywhere, so it is shown again. -/
theorem shown_toJson : ∀ datum : Datum, Shown datum.toJson
  | .null => rfl
  | .bool _ => rfl
  | .number _ => rfl
  | .notFinite _ => rfl
  | .string _ => rfl
  | .sequence items => shown_list (shown_toItems items)
  | .mapping entries =>
    shown_object (nodup_names_foldl_putMember (show (List.map Prod.fst []).Nodup from .nil) _)
      (forall_mem_foldl_putMember (fun _ h => by cases h) (shown_toMembers entries))
termination_by structural datum => datum

theorem shown_toItems : ∀ items : List Datum, ∀ item ∈ Datum.toItems items, Shown item
  | [], _, h => by cases h
  | first :: rest, item, h => by
    obtain rfl | h := List.mem_cons.mp h
    · exact shown_toJson first
    · exact shown_toItems rest item h
termination_by structural items => items

theorem shown_toMembers : ∀ entries : List (Datum × Datum),
    ∀ member ∈ Datum.toMembers entries, Shown member.2
  | [], _, h => by cases h
  | (_, value) :: rest, member, h => by
    obtain rfl | h := List.mem_cons.mp h
    · exact shown_toJson value
    · exact shown_toMembers rest member h
termination_by structural entries => entries

end

namespace Decode

lemma bind_ok {read : Decoded β} {next : β → Decoded α} {result : α}
    (h : read >>= next = .ok result) : ∃ value, read = .ok value ∧ next value = .ok result := by
  cases read with
  | error fault => cases h
  | ok value => exact ⟨value, rfl, h⟩

lemma readsBack_value : ReadsBack value id := by
  rintro datum _ ⟨⟩
  exact shown_toJson datum

lemma takesBack_text (s : String) : TakesBack text .string s := rfl

lemma integerIn_ok {low high n : ℤ} {what : String} {datum : Datum}
    (h : integerIn low high what datum = .ok n) : low ≤ n ∧ n ≤ high := by
  unfold integerIn at h
  split at h
  · split_ifs at h with hrange
    cases h
    exact hrange
  · cases h

lemma integerIn_ofInt {low high n : ℤ} (what : String) (hrange : low ≤ n ∧ n ≤ high)
    (hfits : FitsWord n) : integerIn low high what (.ofJson (.ofInt n)) = .ok n := by
  rw [Json.ofInt, Number.ofInt, dif_pos hfits, Datum.ofJson, integerIn, if_pos hrange]

lemma takesBack_count {n : ℕ} (h : n < wordEnd) :
    TakesBack count (fun n : ℕ => .ofInt n) n := by
  have hrange : (0 : ℤ) ≤ n ∧ (n : ℤ) ≤ wordEnd - 1 := by
    unfold wordEnd at h ⊢
    omega
  have hfits : FitsWord n := by
    unfold FitsWord signedEnd
    omega
  rw [TakesBack, count, integerIn_ofInt "usize" hrange hfits]
  rfl

lemma count_ok {datum : Datum} {n : ℕ} (h : count datum = .ok n) : n < wordEnd := by
  obtain ⟨k, hk, h⟩ := bind_ok h
  cases h
  have hrange := integerIn_ok hk
  omega

lemma takesBack_cardinality (c : Cardinality) :
    TakesBack cardinality Cardinality.encode c := by
  have hrange : -1 ≤ c.toInt ∧ c.toInt < 4294967296 := by
    cases c with
    | limited n positive small =>
      simp only [Cardinality.toInt]
      omega
    | unlimited => decide
  have hword : -signedEnd ≤ c.toInt ∧ c.toInt ≤ signedEnd - 1 := by
    unfold signedEnd
    omega
  have hfits : FitsWord c.toInt := by
    unfold FitsWord wordEnd
    omega
  have hsigned : signed (.ofJson c.encode) = .ok c.toInt := integerIn_ofInt "i64" hword hfits
  have hnumber : Cardinality.ofInt? c.toInt = some c := by
    cases c with
    | limited n positive small =>
      have hpositive : (0 : ℤ) < n ∧ (n : ℤ) < 4294967296 := by omega
      rw [Cardinality.toInt, Cardinality.ofInt?, if_neg (by omega), dif_pos hpositive]
      rfl
    | unlimited => rfl
  simp only [TakesBack, cardinality, hsigned, hnumber]

lemma takesBack_variant {known : List (String × α)} {name : α → String}
    (h : ∀ value, known.lookup (name value) = some value) (kept : Bool) (value : α) :
    TakesBack (variant kept known) (fun value => .string (name value)) value := by
  simp only [TakesBack, Datum.ofJson, variant, variantOf, h]

variable {read : Datum → Decoded α} {write : α → Json}

lemma takesBack_optional (hnull : ∀ value, write value ≠ .null) {value : Option α}
    (h : ∀ v ∈ value, TakesBack read write v) :
    TakesBack (optional read) (encodeOptional write) value := by
  cases value with
  | none => rfl
  | some v =>
    have hread : read (.ofJson (write v)) = .ok v := h v rfl
    have hsome := hnull v
    rw [TakesBack, encodeOptional, Option.map_some, Option.getD_some]
    unfold optional
    split
    · rename_i heq
      cases hwrite : write v with
      | null => exact absurd hwrite hsome
      | _ => simp [hwrite, Datum.ofJson] at heq
    · rw [hread]
      rfl

lemma each_ok {items : List Datum} {values : List α} (h : each read items = .ok values) :
    ∀ value ∈ values, ∃ datum, read datum = .ok value := by
  induction items generalizing values with
  | nil =>
    cases h
    simp
  | cons item rest ih =>
    unfold each at h
    split at h
    · cases h
    · rename_i first hfirst
      split at h
      · cases h
      · rename_i others hothers
        cases h
        exact List.forall_mem_cons.mpr ⟨⟨item, hfirst⟩, ih hothers⟩

lemma each_map {values : List α} (h : ∀ value ∈ values, TakesBack read write value) :
    each read (values.map fun value => .ofJson (write value)) = .ok values := by
  induction values with
  | nil => rfl
  | cons value rest ih =>
    obtain ⟨hvalue, hrest⟩ := List.forall_mem_cons.mp h
    rw [TakesBack] at hvalue
    simp only [List.map_cons, each, hvalue, ih hrest]

lemma takesBack_sequence {values : List α} (h : ∀ value ∈ values, TakesBack read write value) :
    TakesBack (sequence read) (fun values => .list (values.map write)) values := by
  rw [TakesBack, Datum.ofJson, Datum.ofItems_eq_map, List.map_map]
  exact each_map h

lemma sequence_ok {datum : Datum} {values : List α} (h : sequence read datum = .ok values) :
    ∀ value ∈ values, ∃ datum, read datum = .ok value := by
  cases datum with
  | sequence items => exact each_ok h
  | _ => cases h

lemma optional_ok {datum : Datum} {value : Option α} (h : optional read datum = .ok value) :
    ∀ v ∈ value, ∃ datum, read datum = .ok v := by
  rintro v rfl
  unfold optional at h
  split at h
  · cases h
  · obtain ⟨found, hdatum, h⟩ := bind_ok h
    cases h
    exact ⟨datum, hdatum⟩

lemma eachEntry_ok {entries : List (Datum × Datum)} {found : List (String × α)}
    (h : eachEntry read entries = .ok found) :
    ∀ entry ∈ found, ∃ datum, read datum = .ok entry.2 := by
  induction entries generalizing found with
  | nil =>
    cases h
    simp
  | cons entry rest ih =>
    obtain ⟨key, datum⟩ := entry
    unfold eachEntry at h
    split at h
    · cases h
    · cases h
    · rename_i name first _ hfirst
      split at h
      · cases h
      · rename_i others hothers
        cases h
        exact List.forall_mem_cons.mpr ⟨⟨datum, hfirst⟩, ih hothers⟩

lemma eachEntry_map {entries : List (String × α)}
    (h : ∀ entry ∈ entries, TakesBack read write entry.2) :
    eachEntry read (entries.map fun entry => (.string entry.1, .ofJson (write entry.2))) =
      .ok entries := by
  induction entries with
  | nil => rfl
  | cons entry rest ih =>
    obtain ⟨hentry, hrest⟩ := List.forall_mem_cons.mp h
    rw [TakesBack] at hentry
    simp only [List.map_cons, eachEntry, text, hentry, ih hrest]

lemma dictionary_encodeListed {d : Dictionary α} {listed : List (String × α)}
    (hlisted : listed.Perm d.entries) (h : ∀ entry ∈ d.entries, TakesBack read write entry.2) :
    dictionary read (.ofJson (Dictionary.encodeListed write listed)) = .ok d := by
  rw [Dictionary.encodeListed, Datum.ofJson, Datum.ofMembers_eq_map, List.map_map]
  have hentries := eachEntry_map fun entry hentry => h entry (hlisted.subset hentry)
  unfold dictionary
  simp only [Function.comp_def, hentries]
  exact congrArg Except.ok (Dictionary.ofList_of_perm hlisted)

lemma takesBack_dictionary {d : Dictionary α}
    (h : ∀ entry ∈ d.entries, TakesBack read write entry.2) :
    TakesBack (dictionary read) (Dictionary.encode write) d :=
  dictionary_encodeListed (.refl _) h

lemma dictionary_ok {datum : Datum} {d : Dictionary α} (h : dictionary read datum = .ok d) :
    ∀ entry ∈ d.entries, ∃ datum, read datum = .ok entry.2 := by
  intro entry hentry
  unfold dictionary at h
  split at h
  · obtain ⟨found, hfound, h⟩ := bind_ok h
    cases h
    exact eachEntry_ok hfound entry (Dictionary.mem_of_mem_ofList hentry)
  · cases h

end Decode

end RecordMapping

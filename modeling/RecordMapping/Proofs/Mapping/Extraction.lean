import Mathlib.Data.List.Forall2
import RecordMapping.Mapping.Values
import RecordMapping.Proofs.Dictionary
import RecordMapping.Proofs.Mapping.Built

namespace RecordMapping

namespace Mapper

/-- The delta at a position; there is an empty one behind the last. -/
def deltaAt (deltas : List Delta) (position : Nat) : Delta := deltas[position]?.getD .empty

/-- The kept value that a path-mapped property has at a position. -/
def keptAt (raw : Json) (position : Nat) (property : MappedProperty) : Option Json :=
  property.expression?.bind fun expression =>
    (expression.evaluate raw)[position]?.filter (isKept property.name)

/-- The value of a property at a position: a kept one, or its constant. -/
def sourceAt (raw : Json) (position : Nat) (property : MappedProperty) : Option Json :=
  (keptAt raw position property).or (property.constant?.map .string)

def valueAt (field : MappedField) (raw : Json) (position : Nat) (name : String) : Option Json :=
  (field.mapped? name).bind fun property =>
    (sourceAt raw position property).map (normalize property.kind field.definition.dateForm)

lemma find?_deltaAt_zipValues (property name : String) (values : List Json) (deltas : List Delta)
    (position : Nat) :
    (deltaAt (zipValues property values deltas) position).find? name =
      if name = property then
        (values[position]?.filter (isKept property)).or ((deltaAt deltas position).find? name)
      else (deltaAt deltas position).find? name := by
  have hput : ∀ (value : Json) (delta : Delta),
      (if isKept property value then delta.insert property value else delta).find? name =
        if name = property then ((some value).filter (isKept property)).or (delta.find? name)
        else delta.find? name := by
    intro value delta
    by_cases hk : isKept property value <;> by_cases hn : name = property <;>
      simp [hk, hn, Dictionary.find?_insert, Option.filter]
  induction values generalizing deltas position with
  | nil =>
    simp only [zipValues, List.getElem?_nil, Option.filter_none, Option.none_or, ite_self]
  | cons value values ih =>
    cases deltas with
    | nil =>
      cases position with
      | zero => exact hput value .empty
      | succ position => exact ih [] position
    | cons delta deltas =>
      cases position with
      | zero => exact hput value delta
      | succ position => exact ih deltas position

lemma find?_name_eq_none {mapped : List MappedProperty} {name : String}
    (h : name ∉ mapped.map MappedProperty.name) : mapped.find? (·.name == name) = none := by
  rw [List.find?_eq_none]
  intro property hproperty hname
  exact h (beq_iff_eq.mp hname ▸ List.mem_map_of_mem hproperty)

/-- The deltas with the values of mapped properties lined up in them. -/
def lineUp (raw : Json) (mapped : List MappedProperty) (deltas : List Delta) : List Delta :=
  mapped.foldl
    (fun deltas property => match property.expression? with
      | some expression => zipValues property.name (expression.evaluate raw) deltas
      | none => deltas)
    deltas

lemma foundDeltas_eq (mapped : List MappedProperty) (raw : Json) :
    foundDeltas mapped raw = (lineUp raw mapped []).filter fun delta => !delta.isEmpty := rfl

theorem find?_deltaAt_lineUp (raw : Json) {mapped : List MappedProperty}
    (hn : (mapped.map MappedProperty.name).Nodup) (deltas : List Delta) (position : Nat)
    (name : String) :
    (deltaAt (lineUp raw mapped deltas) position).find? name =
      ((mapped.find? (·.name == name)).bind (keptAt raw position)).or
        ((deltaAt deltas position).find? name) := by
  induction mapped generalizing deltas with
  | nil => rfl
  | cons property rest ih =>
    rw [List.map_cons, List.nodup_cons] at hn
    simp only [lineUp, List.foldl_cons] at ih ⊢
    rw [ih hn.2]
    by_cases hname : property.name = name
    · have habsent := find?_name_eq_none (hname ▸ hn.1)
      rw [habsent, List.find?_cons_of_pos (by simpa using hname)]
      simp only [Option.bind_none, Option.none_or, Option.bind_some, keptAt]
      cases property.expression? with
      | none => rfl
      | some expression => simp [find?_deltaAt_zipValues, hname]
    · rw [List.find?_cons_of_neg (by simpa using hname)]
      congr 1
      cases property.expression? with
      | none => rfl
      | some expression => simp [find?_deltaAt_zipValues, Ne.symm hname]

def filledPositions (deltas : List Delta) : List Nat :=
  (List.range deltas.length).filter fun position => !(deltaAt deltas position).isEmpty

lemma filter_not_isEmpty (deltas : List Delta) :
    (deltas.filter fun delta => !delta.isEmpty) =
      (filledPositions deltas).map (deltaAt deltas) := by
  have hrange : deltas = (List.range deltas.length).map (deltaAt deltas) := by
    refine List.ext_getElem (by simp) fun i hi _ => ?_
    simp [deltaAt, hi]
  conv_lhs => rw [hrange]
  rw [List.filter_map]
  rfl

lemma mem_filledPositions {deltas : List Delta} {position : Nat} :
    position ∈ filledPositions deltas ↔ (deltaAt deltas position).isEmpty = false := by
  simp only [filledPositions, List.mem_filter, List.mem_range, Bool.not_eq_true']
  refine ⟨fun h => h.2, fun h => ⟨?_, h⟩⟩
  by_contra hlt
  have hnone : deltas[position]? = none := List.getElem?_eq_none (by omega)
  rw [deltaAt, hnone] at h
  cases h

lemma pairwise_filledPositions (deltas : List Delta) :
    (filledPositions deltas).Pairwise (· < ·) :=
  List.pairwise_lt_range.filter _

/-- A delta with the constants among mapped properties put in. -/
def overlaid (mapped : List MappedProperty) (delta : Delta) : Delta :=
  mapped.foldl (fun d p => d.insert? p.name (p.constant?.map Json.string)) delta

lemma foldl_constants_eq (mapped : List MappedProperty) (delta : Delta) :
    (constants mapped).foldl (fun d entry => Dictionary.insert entry.1 (.string entry.2) d) delta =
      overlaid mapped delta := by
  unfold overlaid constants
  rw [List.foldl_filterMap]
  congr
  funext d property
  cases property.constant? with
  | none => rfl
  | some text => rfl

lemma pairwise_of_nodup_names {mapped : List MappedProperty}
    (hn : (mapped.map MappedProperty.name).Nodup) (value : MappedProperty → Option Json) :
    mapped.Pairwise fun a b => a.name = b.name → value b = none :=
  (List.pairwise_map.mp hn).imp fun hne heq => absurd heq hne

lemma find?_overlaid {mapped : List MappedProperty} (hn : (mapped.map MappedProperty.name).Nodup)
    (delta : Delta) (name : String) :
    (overlaid mapped delta).find? name =
      ((mapped.find? (·.name == name)).bind fun property => property.constant?.map Json.string).or
        (delta.find? name) :=
  Dictionary.find?_foldl_insert? MappedProperty.name _ (pairwise_of_nodup_names hn _) delta name

lemma overlay_eq (mapped : List MappedProperty) (deltas : List Delta) :
    overlay (constants mapped) deltas =
      (if deltas.isEmpty && !(constants mapped).isEmpty then [Dictionary.empty] else deltas).map
        (overlaid mapped) := by
  have hfold : overlaid mapped = (constants mapped).foldl
      fun d entry => Dictionary.insert entry.1 (.string entry.2) d := by
    funext delta
    exact (foldl_constants_eq mapped delta).symm
  rw [hfold]
  cases constants mapped with
  | nil => simp [overlay]
  | cons constant rest => cases deltas <;> simp [overlay]

/-- Under the name of a mapped property stands its normalized constant, or else the normalized value
that was there. -/
lemma find?_normalizeDelta {field : MappedField} {dialect : Dialect}
    (hc : Compiled dialect field.mapped) (delta : Delta) (name : String) :
    (normalizeDelta field (overlaid field.mapped delta)).find? name =
      match field.mapped? name with
      | some property => ((property.constant?.map Json.string).or (delta.find? name)).map
          (normalize property.kind field.definition.dateForm)
      | none => delta.find? name := by
  have hfind : field.mapped.find? (·.name == name) = field.mapped? name := rfl
  unfold normalizeDelta
  rw [Dictionary.find?_map, find?_overlaid hc.nodup_names, hfind]
  cases field.mapped? name with
  | none => simp
  | some property => rfl

lemma find?_normalizeDelta_kept {field : MappedField} {dialect : Dialect}
    (hc : Compiled dialect field.mapped) {raw : Json} {position : Nat} {delta : Delta}
    (hd : ∀ name, delta.find? name = (field.mapped? name).bind (keptAt raw position))
    (name : String) :
    (normalizeDelta field (overlaid field.mapped delta)).find? name =
      valueAt field raw position name := by
  rw [find?_normalizeDelta hc, hd, valueAt]
  cases field.mapped? name with
  | none => rfl
  | some property =>
    cases hs : property.source with
    | constant text =>
      have he : property.expression? = none := by simp [MappedProperty.expression?, hs]
      have ht : property.constant? = some text := MappedProperty.constant?_eq_some_iff.mpr hs
      simp [sourceAt, keptAt, he, ht]
    | path expression =>
      have ht : property.constant? = none := by simp [MappedProperty.constant?, hs]
      simp [sourceAt, ht]

/-- The deltas of a field, position by position. When no position has a kept value, the constants
make one delta, which stands at position zero. -/
theorem extractField_aligned {field : MappedField} {dialect : Dialect}
    (hc : Compiled dialect field.mapped) (raw : Json) :
    ∃ positions : List Nat, positions.Pairwise (· < ·) ∧
      (∀ i, i ∈ positions ↔ ∃ property ∈ field.mapped, ∃ value,
        keptAt raw i property = some value) ∧
      List.Forall₂ (fun i delta => ∀ name, delta.find? name = valueAt field raw i name)
        (if positions.isEmpty && !(constants field.mapped).isEmpty then [0] else positions)
        (extractField field raw) := by
  let lined := lineUp raw field.mapped []
  have hlined : ∀ i name,
      (deltaAt lined i).find? name = (field.mapped? name).bind (keptAt raw i) := by
    intro i name
    rw [find?_deltaAt_lineUp raw hc.nodup_names]
    exact Option.or_none
  have hmem : ∀ i, i ∈ filledPositions lined ↔
      ∃ property ∈ field.mapped, ∃ value, keptAt raw i property = some value := by
    intro i
    rw [mem_filledPositions, Dictionary.isEmpty_eq_false_iff]
    constructor
    · rintro ⟨name, value, h⟩
      rw [hlined, Option.bind_eq_some_iff] at h
      obtain ⟨property, hproperty, hvalue⟩ := h
      exact ⟨property, (mem_of_mapped? hproperty).1, value, hvalue⟩
    · rintro ⟨property, hproperty, value, hvalue⟩
      refine ⟨property.name, value, ?_⟩
      rw [hlined, hc.mapped?_eq hproperty, Option.bind_some, hvalue]
  refine ⟨filledPositions lined, pairwise_filledPositions lined, hmem, ?_⟩
  rw [extractField, foundDeltas_eq, filter_not_isEmpty, overlay_eq, List.map_map,
    List.isEmpty_map]
  split
  · rename_i hnone
    have hempty : filledPositions lined = [] := by
      simp only [Bool.and_eq_true, List.isEmpty_iff] at hnone
      exact hnone.1
    refine List.Forall₂.cons (find?_normalizeDelta_kept hc fun name => ?_) List.Forall₂.nil
    have hzero : (deltaAt lined 0).isEmpty := by
      rw [← Bool.not_eq_false, ← mem_filledPositions, hempty]
      exact List.not_mem_nil
    rw [← hlined, Dictionary.isEmpty_iff.mp hzero name]
    rfl
  · rw [List.map_map, List.forall₂_map_right_iff, List.forall₂_same]
    exact fun i _ => find?_normalizeDelta_kept hc (hlined i)

lemma extractField_of_unmapped {field : MappedField} (h : field.mapped = []) (raw : Json) :
    extractField field raw = [] := by
  simp [extractField, foundDeltas, h, constants, overlay]

def nonEmpty? (deltas : List Delta) : Option (List Delta) :=
  if deltas.isEmpty then none else some deltas

theorem find?_extract {mapper : Mapper} {dialect : Dialect} (hr : Ready dialect mapper.fields)
    (raw : Json) (name : String) :
    (mapper.extract raw).find? name =
      (mapper.field? name).bind fun field => nonEmpty? (extractField field raw) := by
  have hextract : mapper.extract raw = mapper.fields.foldl (fun values field =>
      values.insert? field.definition.name (nonEmpty? (extractField field raw))) .empty := by
    rw [extract]
    congr
    funext values field
    by_cases h : (extractField field raw).isEmpty <;> simp [nonEmpty?, Dictionary.insert?, h]
  have hfirst : mapper.fields.Pairwise fun a b => a.definition.name = b.definition.name →
      nonEmpty? (extractField b raw) = none :=
    hr.shadowed.imp fun hbare hname => by
      rw [extractField_of_unmapped (hbare hname)]
      rfl
  have hfound := Dictionary.find?_foldl_insert? (fun field : MappedField => field.definition.name)
    (fun field => nonEmpty? (extractField field raw)) hfirst .empty name
  rw [hextract]
  exact hfound.trans Option.or_none

lemma isKept_iff {property : String} {value : Json} :
    isKept property value = true ↔
      value ≠ .null ∧ (property = referenceProperty → value ≠ .string "") := by
  by_cases hp : property = referenceProperty <;>
    cases value <;> simp [isKept, Json.isNull, Json.isEmptyReference, hp]

/-- A property has a kept value at a position: its expression finds it there, it is not null, and
under the reference property it is not the empty string. -/
def HasKept (raw : Json) (position : Nat) (property : MappedProperty) (value : Json) : Prop :=
  ∃ expression, property.expression? = some expression ∧
    (expression.evaluate raw)[position]? = some value ∧
    value ≠ .null ∧ (property.name = referenceProperty → value ≠ .string "")

lemma keptAt_eq_some_iff {raw : Json} {position : Nat} {property : MappedProperty} {value : Json} :
    keptAt raw position property = some value ↔ HasKept raw position property value := by
  simp only [keptAt, HasKept, Option.bind_eq_some_iff, Option.filter_eq_some_iff, isKept_iff]

lemma mapped?_eq_some_iff {field : MappedField} {dialect : Dialect}
    (hc : Compiled dialect field.mapped) {name : String} {property : MappedProperty} :
    field.mapped? name = some property ↔ property ∈ field.mapped ∧ property.name = name :=
  ⟨mem_of_mapped?, fun ⟨hmem, hname⟩ => hname ▸ hc.mapped?_eq hmem⟩

lemma valueAt_eq_some_iff {field : MappedField} {dialect : Dialect}
    (hc : Compiled dialect field.mapped) {raw : Json} {position : Nat} {name : String}
    {value : Json} :
    valueAt field raw position name = some value ↔
      ∃ property ∈ field.mapped, property.name = name ∧ ∃ source,
        (HasKept raw position property source ∨
          ∃ text, property.constant? = some text ∧ source = .string text) ∧
        value = normalize property.kind field.definition.dateForm source := by
  simp only [valueAt, Option.bind_eq_some_iff, mapped?_eq_some_iff hc, Option.map_eq_some_iff,
    and_assoc]
  refine exists_congr fun property => and_congr_right fun _ => and_congr_right fun _ =>
    exists_congr fun source => and_congr ?_ eq_comm
  simp only [← keptAt_eq_some_iff, sourceAt]
  cases hs : property.source with
  | constant text =>
    have he : property.expression? = none := by simp [MappedProperty.expression?, hs]
    have ht : property.constant? = some text := MappedProperty.constant?_eq_some_iff.mpr hs
    simp [keptAt, he, ht, eq_comm]
  | path expression =>
    have ht : property.constant? = none := by simp [MappedProperty.constant?, hs]
    simp [ht]

lemma constants_isEmpty_iff {mapped : List MappedProperty} :
    (constants mapped).isEmpty ↔ ∀ property ∈ mapped, property.constant? = none := by
  simp [constants, List.isEmpty_iff]

lemma not_isEmpty_of_forall₂ {field : MappedField} {raw : Json} {positions : List Nat}
    {deltas : List Delta}
    (h : List.Forall₂ (fun i delta => ∀ name, delta.find? name = valueAt field raw i name)
      positions deltas)
    (hv : ∀ i ∈ positions, ∃ name value, valueAt field raw i name = some value) :
    ∀ delta ∈ deltas, delta.isEmpty = false := by
  induction h with
  | nil => simp
  | cons hdelta _ ih =>
    rw [List.forall_mem_cons] at hv ⊢
    refine ⟨?_, ih hv.2⟩
    obtain ⟨name, value, hvalue⟩ := hv.1
    exact Dictionary.isEmpty_eq_false_iff.mpr ⟨name, value, (hdelta name).trans hvalue⟩

theorem isEmpty_of_mem_extractField {field : MappedField} {dialect : Dialect}
    (hc : Compiled dialect field.mapped) (raw : Json) :
    ∀ delta ∈ extractField field raw, delta.isEmpty = false := by
  obtain ⟨positions, -, hmem, haligned⟩ := extractField_aligned hc raw
  apply not_isEmpty_of_forall₂ haligned
  intro i hi
  split at hi
  · rename_i hadd
    simp only [Bool.and_eq_true, Bool.not_eq_true', ← Bool.not_eq_true, constants_isEmpty_iff,
      not_forall] at hadd
    obtain ⟨property, hproperty, hsome⟩ := hadd.2
    obtain ⟨text, htext⟩ := Option.ne_none_iff_exists'.mp hsome
    exact ⟨property.name, _, (valueAt_eq_some_iff hc).mpr
      ⟨property, hproperty, rfl, .string text, Or.inr ⟨text, htext, rfl⟩, rfl⟩⟩
  · obtain ⟨property, hproperty, value, hvalue⟩ := (hmem i).mp hi
    exact ⟨property.name, _, (valueAt_eq_some_iff hc).mpr
      ⟨property, hproperty, rfl, value, Or.inl (keptAt_eq_some_iff.mp hvalue), rfl⟩⟩

theorem extractField_of_no_kept {field : MappedField} {dialect : Dialect}
    (hc : Compiled dialect field.mapped) {raw : Json}
    (hnone : ∀ i, ∀ property ∈ field.mapped, ∀ value, ¬HasKept raw i property value)
    (hconstant : ∃ property ∈ field.mapped, ∃ text, property.constant? = some text) :
    ∃ delta, extractField field raw = [delta] ∧ ∀ key value, delta.find? key = some value ↔
      ∃ property ∈ field.mapped, property.name = key ∧ ∃ text, property.constant? = some text ∧
        value = normalize property.kind field.definition.dateForm (.string text) := by
  obtain ⟨positions, -, hmem, haligned⟩ := extractField_aligned hc raw
  have hpositions : positions = [] := by
    apply List.eq_nil_iff_forall_not_mem.mpr
    intro i hi
    obtain ⟨property, hproperty, value, hvalue⟩ := (hmem i).mp hi
    exact hnone i property hproperty value (keptAt_eq_some_iff.mp hvalue)
  have hsome : (constants field.mapped).isEmpty = false := by
    obtain ⟨property, hproperty, text, htext⟩ := hconstant
    rw [← Bool.not_eq_true, constants_isEmpty_iff]
    intro hno
    rw [hno property hproperty] at htext
    cases htext
  rw [hpositions, hsome] at haligned
  obtain ⟨delta, rest, hdelta, hrest, hdeltas⟩ := List.forall₂_cons_left_iff.mp haligned
  rw [List.forall₂_nil_left_iff.mp hrest] at hdeltas
  refine ⟨delta, hdeltas, fun key value => ?_⟩
  rw [hdelta, valueAt_eq_some_iff hc]
  constructor
  · rintro ⟨property, hproperty, hname, source, hvalue | ⟨text, htext, rfl⟩, hnormal⟩
    · exact absurd hvalue (hnone 0 property hproperty source)
    · exact ⟨property, hproperty, hname, text, htext, hnormal⟩
  · rintro ⟨property, hproperty, hname, text, htext, hnormal⟩
    exact ⟨property, hproperty, hname, .string text, Or.inr ⟨text, htext, rfl⟩, hnormal⟩

/-- The deltas of a field stand for the positions with kept values, in order. The delta for a
position holds the normalized kept values of just that position and the normalized constants; where
no position has a kept value, a field with constants has one delta of its constants. The field is
in the result exactly when it has a delta, and no delta is empty. -/
theorem extract_aligned {entityType : String} {config : MapperConfig} {schema : Schema}
    {catalog : Catalog} {mapper : Mapper} (hb : build entityType config schema catalog = .ok mapper)
    {name : String} {field : MappedField} (hf : mapper.field? name = some field) (raw : Json) :
    ∃ (positions : List Nat) (deltas : List Delta),
      (mapper.extract raw).find? name = (if deltas.isEmpty then none else some deltas) ∧
      (∀ delta ∈ deltas, delta.isEmpty = false) ∧
      positions.Pairwise (· < ·) ∧
      (∀ i, i ∈ positions ↔ ∃ property ∈ field.mapped, ∃ value, HasKept raw i property value) ∧
      ((positions ≠ [] ∨ ∀ property ∈ field.mapped, property.constant? = none) →
        List.Forall₂ (fun i delta => ∀ key value, delta.find? key = some value ↔
          ∃ property ∈ field.mapped, property.name = key ∧ ∃ source,
            (HasKept raw i property source ∨
              ∃ text, property.constant? = some text ∧ source = .string text) ∧
            value = normalize property.kind field.definition.dateForm source) positions deltas) ∧
      (positions = [] → (∃ property ∈ field.mapped, ∃ text, property.constant? = some text) →
        ∃ delta, deltas = [delta] ∧ ∀ key value, delta.find? key = some value ↔
          ∃ property ∈ field.mapped, property.name = key ∧ ∃ text,
            property.constant? = some text ∧
            value = normalize property.kind field.definition.dateForm (.string text)) := by
  have hr := (ready_of_build hb).2
  have hc := hr.compiled field (mem_of_field? hf).1
  obtain ⟨positions, hsorted, hmem, haligned⟩ := extractField_aligned hc raw
  simp only [keptAt_eq_some_iff] at hmem
  refine ⟨positions, extractField field raw, ?_, isEmpty_of_mem_extractField hc raw, hsorted, hmem,
    ?_, ?_⟩
  · rw [find?_extract hr, hf]
    rfl
  · intro hplain
    have hpositions : (positions.isEmpty && !(constants field.mapped).isEmpty) = false := by
      rcases hplain with hne | hno
      · simp [hne]
      · simp [constants_isEmpty_iff.mpr hno]
    rw [hpositions] at haligned
    apply haligned.imp
    intro i delta hdelta key value
    rw [hdelta, valueAt_eq_some_iff hc]
  · intro hempty hconstant
    apply extractField_of_no_kept hc _ hconstant
    intro i property hproperty value hvalue
    have hi : i ∈ positions := (hmem i).mpr ⟨property, hproperty, value, hvalue⟩
    rw [hempty] at hi
    cases hi

/-- Three values in a list: a label, nothing of a link, and an address. -/
def scatteredLinks : Json :=
  .object [("links", .list [.object [("label", .string "A")], .null,
    .object [("href", .string "https://c")]])]

/-- The second item has no kept value and makes no delta. -/
theorem extract_aligned_movie :
    ∃ (positions : List Nat) (deltas : List Delta),
      (movieMapper.extract scatteredLinks).find? "links" =
        (if deltas.isEmpty then none else some deltas) ∧
      positions.Pairwise (· < ·) ∧ 0 ∈ positions ∧ 1 ∉ positions ∧ 2 ∈ positions ∧
      positions.length = deltas.length := by
  obtain ⟨positions, deltas, hfound, -, hsorted, hmem, haligned, -⟩ :=
    extract_aligned build_movie field?_links scatteredLinks
  have htitle : HasKept scatteredLinks 0 linkTitle (.string "A") :=
    ⟨_, rfl, rfl, by simp, by simp [linkTitle, referenceProperty]⟩
  have huri : HasKept scatteredLinks 2 linkUri (.string "https://c") :=
    ⟨_, rfl, rfl, by simp, by simp [linkUri, referenceProperty]⟩
  have hfirst : 0 ∈ positions := (hmem 0).mpr ⟨linkTitle, List.mem_cons_self, _, htitle⟩
  have hthird : 2 ∈ positions :=
    (hmem 2).mpr ⟨linkUri, List.mem_cons_of_mem _ List.mem_cons_self, _, huri⟩
  refine ⟨positions, deltas, hfound, hsorted, hfirst, ?_, hthird,
    (haligned (Or.inl (List.ne_nil_of_mem hfirst))).length_eq⟩
  rw [hmem]
  rintro ⟨property, hp, value, expression, he, hvalue, hnull, -⟩
  simp only [movieLinks, List.mem_cons, List.not_mem_nil, or_false] at hp
  rcases hp with rfl | rfl
  · obtain rfl := Option.some.inj he
    obtain rfl := Option.some.inj hvalue
    exact hnull rfl
  · obtain rfl := Option.some.inj he
    obtain rfl := Option.some.inj hvalue
    exact hnull rfl

end Mapper

end RecordMapping

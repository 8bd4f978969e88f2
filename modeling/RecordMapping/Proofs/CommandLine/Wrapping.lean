import RecordMapping.CommandLine.Documents
import RecordMapping.Proofs.Definition.ReadBack

namespace RecordMapping

lemma Json.Formed.shown {levels : ℕ} {value : Json} (h : Json.Formed levels value) :
    Shown value := by
  induction h with
  | @scalar levels value hscalar =>
    cases value with
    | list items => cases hscalar
    | object members => cases hscalar
    | _ => rfl
  | list h ih => exact shown_list ih
  | object distinct h ih => exact shown_object distinct ih

namespace EntityValues

/-- Whether the objects in the values of all properties have distinct names. -/
def Proper (values : EntityValues) : Prop :=
  ∀ field ∈ values.entries, ∀ delta ∈ field.2, ∀ property ∈ delta.entries,
    ∃ levels, Json.Formed levels property.2

variable {values : EntityValues}

lemma decode_encode (h : values.Proper) : decode (.ofJson values.encode) = .ok values := by
  refine takesBack fun field hfield delta hdelta property hproperty => ?_
  obtain ⟨levels, hformed⟩ := h field hfield delta hdelta property hproperty
  exact hformed.shown

lemma member?_encode (name : String) (values : EntityValues) :
    values.encode.member? name =
      (Dictionary.find? name values).map fun deltas => .list (deltas.map encodeDelta) := by
  obtain ⟨entries, sorted⟩ := values
  simp only [encode, Dictionary.encode, Dictionary.encodeListed, Json.member?, Dictionary.find?]
  clear sorted
  induction entries with
  | nil => rfl
  | cons entry rest ih =>
    obtain ⟨field, deltas⟩ := entry
    by_cases hname : field = name
    · simp [findMember, hname]
    · simp only [List.map_cons, findMember, if_neg hname, ih]
      simp [hname]

end EntityValues

/-- Wrapped entity values are read back whatever they are wrapped with. Bare ones are read back
exactly when no field has the name of the member that wraps: the deltas of such a field are taken
for entity values and refused. -/
theorem entityValues_encode {values : EntityValues} (h : values.Proper) :
    (∀ id, entityValues (.object [("id", id), (valuesMember, values.encode)]) = .ok values) ∧
    (entityValues values.encode = .ok values ↔ Dictionary.find? valuesMember values = none) ∧
    ((Dictionary.find? valuesMember values).isSome →
      entityValues values.encode = .error (.wrongType .sequence "a map")) := by
  have hrefused (deltas : List Delta)
      (hfound : Dictionary.find? valuesMember values = some deltas) :
      entityValues values.encode = .error (.wrongType .sequence "a map") := by
    rw [entityValues, EntityValues.member?_encode, hfound]
    rfl
  refine ⟨fun id => ?_, ⟨fun hread => ?_, fun hnone => ?_⟩, fun hsome => ?_⟩
  · have hmember : Json.member? valuesMember
        (.object [("id", id), (valuesMember, values.encode)]) = some values.encode := rfl
    rw [entityValues, hmember]
    exact EntityValues.decode_encode h
  · cases hfound : Dictionary.find? valuesMember values with
    | none => rfl
    | some deltas =>
      rw [hrefused deltas hfound] at hread
      cases hread
  · rw [entityValues, EntityValues.member?_encode, hnone]
    exact EntityValues.decode_encode h
  · obtain ⟨deltas, hfound⟩ := Option.isSome_iff_exists.mp hsome
    exact hrefused deltas hfound

/-- Values of a field of another name are read back bare and wrapped, those of a field with the name
of the member only wrapped. -/
theorem entityValues_encode_measured :
    let value : Delta := ⟨[("value", .list [.number (.ofInt 3)])], by decide⟩
    let measured : EntityValues := ⟨[("measured", [value, value])], by decide⟩
    let clashing : EntityValues := ⟨[("title", []), ("values", [value])], by decide⟩
    measured.Proper ∧ clashing.Proper ∧
      entityValues measured.encode = .ok measured ∧
      entityValues (.object [("id", .null), ("values", measured.encode)]) = .ok measured ∧
      entityValues clashing.encode = .error (.wrongType .sequence "a map") ∧
      entityValues (.object [("id", .null), ("values", clashing.encode)]) = .ok clashing := by
  intro value measured clashing
  have hproper : ∀ property ∈ value.entries, ∃ levels, Json.Formed levels property.2 := by
    simp only [value, List.mem_singleton, forall_eq]
    exact ⟨1, .list (by simpa using .scalar rfl)⟩
  have hmeasured : measured.Proper := by
    simpa [EntityValues.Proper, measured] using hproper
  have hclashing : clashing.Proper := by
    simpa [EntityValues.Proper, clashing] using hproper
  obtain ⟨hwrapped, hbare, -⟩ := entityValues_encode hmeasured
  obtain ⟨hwrappedClash, -, hrefused⟩ := entityValues_encode hclashing
  exact ⟨hmeasured, hclashing, hbare.mpr (by decide), hwrapped .null, hrefused (by decide),
    hwrappedClash .null⟩

end RecordMapping

import Mathlib.Data.List.Forall2
import RecordMapping.Mapping.Table
import RecordMapping.Proofs.Dictionary

namespace RecordMapping

/-- A mapping of a table, with the field and the property that it is for. -/
structure Mapping where
  field : String
  property : String
  expression : String

/-- Whether the expression of a mapping has a character that is no blank. -/
def Mapping.isWritten (m : Mapping) : Bool := !isAllBlank m.expression.toList

namespace MappingTable

def listEntries (entries : List (String × PropertyMappings)) : List Mapping :=
  entries.flatMap fun entry => entry.2.entries.map fun mapping => ⟨entry.1, mapping.1, mapping.2⟩

/-- The mappings of a table, in the order of the field names and the property names. -/
def listed (table : MappingTable) : List Mapping := listEntries table.entries

variable {table : MappingTable}

lemma listEntries_cons (name : String) (mappings : PropertyMappings)
    (rest : List (String × PropertyMappings)) :
    listEntries ((name, mappings) :: rest) =
      mappings.entries.map (fun mapping => ⟨name, mapping.1, mapping.2⟩) ++ listEntries rest := rfl

theorem mem_listed_iff {m : Mapping} :
    m ∈ table.listed ↔ table.property? m.field m.property = some m.expression := by
  obtain ⟨field, property, expression⟩ := m
  simp only [listed, listEntries, List.mem_flatMap, List.mem_map, property?,
    Option.bind_eq_some_iff, Dictionary.find?_eq_some_iff, Mapping.mk.injEq]
  constructor
  · rintro ⟨⟨name, mappings⟩, hentry, ⟨own, text⟩, hmapping, rfl, rfl, rfl⟩
    exact ⟨mappings, hentry, hmapping⟩
  · rintro ⟨mappings, hentry, hmapping⟩
    exact ⟨(field, mappings), hentry, (property, expression), hmapping, rfl, rfl, rfl⟩

theorem filter_listed (table : MappingTable) (name : String) :
    table.listed.filter (·.field = name) =
      (((table.find? name).map Dictionary.entries).getD []).map
        fun mapping => ⟨name, mapping.1, mapping.2⟩ := by
  obtain ⟨entries, sorted⟩ := table
  simp only [listed, Dictionary.find?]
  induction entries with
  | nil => rfl
  | cons head rest ih =>
    obtain ⟨key, mappings⟩ := head
    obtain ⟨hhead, hrest⟩ := List.pairwise_cons.mp sorted
    rw [listEntries_cons, List.filter_append, ih hrest, List.filter_map]
    by_cases hkey : key = name
    · subst hkey
      have hlater : rest.find? (·.1 == key) = none := by
        rw [List.find?_eq_none]
        intro entry hentry hname
        exact String.lt_irrefl key (beq_iff_eq.mp hname ▸ hhead entry hentry)
      simp [hlater, Function.comp_def]
    · simp [hkey, Function.comp_def]

lemma listEntries_filter (entries : List (String × PropertyMappings)) :
    listEntries (entries.filter fun entry => !entry.2.isEmpty) = listEntries entries := by
  induction entries with
  | nil => rfl
  | cons head rest ih =>
    obtain ⟨name, mappings⟩ := head
    cases hempty : mappings.isEmpty with
    | true =>
      have hnone : mappings.entries = [] := List.isEmpty_iff.mp hempty
      rw [List.filter_cons_of_neg (by simp [hempty]), ih, listEntries_cons, hnone]
      rfl
    | false =>
      rw [List.filter_cons_of_pos (by simp [hempty]), listEntries_cons, listEntries_cons, ih]

theorem listed_withoutBlanks (table : MappingTable) :
    table.withoutBlanks.listed = table.listed.filter Mapping.isWritten := by
  have hmap : listEntries (table.entries.map fun entry =>
      (entry.1, Dictionary.filter (fun _ e => !isAllBlank e.toList) entry.2)) =
        table.listed.filter Mapping.isWritten := by
    simp only [listed, listEntries, List.flatMap_map, List.filter_flatMap, List.filter_map]
    rfl
  rw [← hmap]
  exact listEntries_filter _

theorem not_isEmpty_of_withoutBlanks {name : String} {mappings : PropertyMappings}
    (h : table.withoutBlanks.find? name = some mappings) : mappings.isEmpty = false := by
  have hentry := Dictionary.find?_eq_some_iff.mp h
  simpa using (List.mem_filter.mp hentry).2

end MappingTable

end RecordMapping

import RecordMapping.Project.Project
import RecordMapping.Proofs.Definition.Structures
import RecordMapping.Proofs.Yaml.Mappings

namespace RecordMapping

open Yaml Decode

section Reading

variable {document : Document} {value : Node} {tokens : List Token} {depth : ℕ} {datum : Datum}

/-- A value is read as a text that is empty, or is the first content of its tokens. -/
lemma reader_text (hstarts : Assembly.Starts tokens value) :
    document.reader (depth + 1) .text value = failure ∨
      ∃ text, document.reader (depth + 1) .text value = pure (.string text) ∧
        (text = "" ∨ ∃ style,
          (tokens.filter (!·.isProperty)).head? = some (.scalar text style)) := by
  cases hstarts with
  | empty tag style => exact .inr ⟨"", rfl, .inl rfl⟩
  | scalar tag first => exact .inr ⟨_, rfl, .inr ⟨_, first⟩⟩
  | sequence tag items => exact .inl rfl
  | mapping tag entries => exact .inl rfl

lemma exists_of_members {part : Document.PartReader} {known : List (String × Shape)} {shape : Shape}
    {tag : Option Tag} {style : ScalarStyle} {key : String} {others : List (Node × Node)}
    {jumps left : ℕ} (hknown : known.lookup key = some shape)
    (h : (document.members part known ((.scalar tag style key, value) :: others)).run jumps =
      some (datum, left)) :
    ∃ first between rest, (part shape value).run jumps = some (first, between) ∧
      datum = .mapping ((.string key, first) :: rest) := by
  have hkey : document.key (.scalar tag style key) = pure key := rfl
  simp only [Document.members, List.filterMapM_cons, hkey, pure_bind, hknown, bind_assoc,
    StateT.run_bind] at h
  obtain ⟨⟨first, between⟩, hfirst, h⟩ := Option.bind_eq_some_iff.mp h
  obtain ⟨⟨rest, last⟩, -, h⟩ := Option.bind_eq_some_iff.mp h
  cases h
  exact ⟨first, between, rest, hfirst, rfl⟩

theorem exists_of_read? {known : List (String × Shape)} {key : String} {others : List (Node × Node)}
    (hknown : known.lookup key = some .text) (hstarts : Assembly.Starts tokens value)
    (hroot : document.root = .mapping none ((.scalar none .plain key, value) :: others))
    (h : document.read? (.record known) = some datum) :
    ∃ text rest, datum = .mapping ((.string key, .string text) :: rest) ∧
      (text = "" ∨ ∃ style,
        (tokens.filter (!·.isProperty)).head? = some (.scalar text style)) := by
  obtain ⟨depth, hdepth⟩ : ∃ depth, Document.depthLimit = depth + 2 := ⟨126, rfl⟩
  unfold Document.read? at h
  rw [hdepth, hroot] at h
  obtain ⟨⟨found, left⟩, hrun, heq⟩ := Option.map_eq_some_iff.mp h
  cases heq
  have hlevel : document.reader (depth + 2) (.record known)
      (.mapping none ((.scalar none .plain key, value) :: others)) =
      document.members (document.reader (depth + 1)) known
        ((.scalar none .plain key, value) :: others) := rfl
  rw [hlevel] at hrun
  obtain ⟨first, between, rest, hfirst, rfl⟩ := exists_of_members hknown hrun
  obtain hfailure | ⟨text, htext, hchoice⟩ := @reader_text document value tokens depth hstarts
  · rw [hfailure] at hfirst
    cases hfirst
  · rw [htext] at hfirst
    cases hfirst
    exact ⟨text, rest, rfl, hchoice⟩

end Reading

lemma exists_of_namedEntries {names : List String} {key datum : Datum} {name : String}
    {rest : List (Datum × Datum)} {found : List (String × Datum)}
    (hkey : named names key = .ok (some name))
    (h : namedEntries names ((key, datum) :: rest) = .ok found) :
    ∃ others, found = (name, datum) :: others := by
  rw [namedEntries, hkey] at h
  cases hrest : namedEntries names rest with
  | error fault =>
    rw [hrest] at h
    cases h
  | ok others =>
    rw [hrest] at h
    cases h
    exact ⟨others, rfl⟩

namespace ProjectConfig

lemma name_of_put (draft : Draft) (member : String) (datum : Datum) (next : Draft)
    (hne : member ≠ "name") (h : draft.put member datum = .ok (some next)) :
    next.name = draft.name := by
  unfold Draft.put at h
  split at h
  · exact absurd rfl hne
  · obtain ⟨version, -, rfl⟩ := bind_some_ok h
    rfl
  · obtain ⟨dialect, -, rfl⟩ := bind_some_ok h
    rfl
  · obtain ⟨settings, -, rfl⟩ := bind_some_ok h
    rfl
  · cases h

/-- A project that is defined with its name first has that name. -/
theorem name_of_decode {text : String} {rest : List (Datum × Datum)} {project : ProjectConfig}
    (h : decode (.mapping ((.string "name", .string text) :: rest)) = .ok project) :
    project.name = text := by
  obtain ⟨draft, hdraft, h⟩ := bind_ok h
  obtain ⟨name, hname, h⟩ := bind_ok h
  cases h
  have hnamed : named members.names (.string "name") = .ok (some "name") := rfl
  have hgiven : draft.name = some text := by
    unfold Decode.draft at hdraft
    dsimp only at hdraft
    split at hdraft
    · cases hdraft
    · rename_i found hfound
      obtain ⟨others, rfl⟩ := exists_of_namedEntries hnamed hfound
      refine fill_of_mem name_of_put (fun draft datum hnone => ?_) (fun draft next hnext => ?_)
        hdraft List.mem_cons_self
      · obtain ⟨given, -, hset⟩ := bind_ok hnone
        cases hset
      · obtain ⟨given, hgiven, rfl⟩ := bind_some_ok hnext
        cases hgiven
        rfl
  rw [hgiven] at hname
  cases hname
  rfl

end ProjectConfig

end RecordMapping

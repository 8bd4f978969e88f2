import RecordMapping.Proofs.Document.ReadWrite

namespace RecordMapping

abbrev Placement : Type := List Step × Json

namespace Json

/-- The document with values written into it one after another. -/
def writeAll : List Placement → Json → Except Conflict Json
  | [], document => .ok document
  | placement :: rest, document =>
    match write placement.2 placement.1 document with
    | .ok document => writeAll rest document
    | .error conflict => .error conflict

@[simp] lemma writeAll_nil (document : Json) : writeAll [] document = .ok document := rfl

lemma writeAll_cons_ok {placement : Placement} {rest : List Placement} {document result : Json} :
    writeAll (placement :: rest) document = .ok result ↔
      ∃ between, write placement.2 placement.1 document = .ok between ∧
        writeAll rest between = .ok result := by
  cases h : write placement.2 placement.1 document <;> simp [writeAll, h]

theorem writeAll_append_ok {first second : List Placement} {document result : Json} :
    writeAll (first ++ second) document = .ok result ↔
      ∃ between, writeAll first document = .ok between ∧ writeAll second between = .ok result := by
  induction first generalizing document with
  | nil => simp
  | cons placement rest ih =>
    simp only [List.cons_append, writeAll_cons_ok, ih]
    constructor
    · rintro ⟨d, hd, e, he, hr⟩
      exact ⟨e, ⟨d, hd, he⟩, hr⟩
    · rintro ⟨e, ⟨d, hd, he⟩, hr⟩
      exact ⟨d, hd, e, he, hr⟩

theorem writeAll_flatMap_invariant {α : Type} (inv : Json → Prop) (group : α → List Placement)
    (groups : List α)
    (hstep : ∀ g ∈ groups, ∀ d e, inv d → writeAll (group g) d = .ok e → inv e)
    {document result : Json} (hd : inv document)
    (h : writeAll (groups.flatMap group) document = .ok result) : inv result := by
  induction groups generalizing document with
  | nil =>
    rw [List.flatMap_nil, writeAll_nil] at h
    exact Except.ok.inj h ▸ hd
  | cons g rest ih =>
    obtain ⟨between, hfirst, hrest⟩ := writeAll_append_ok.mp h
    have hbetween : inv between := hstep g (by simp) document between hd hfirst
    exact ih (fun g' hg' => hstep g' (by simp [hg'])) hbetween hrest

theorem find?_writeAll_of_forks {placements : List Placement} {path : List Step}
    {document result : Json} (h : writeAll placements document = .ok result)
    (hf : ∀ placement ∈ placements, Forks placement.1 path) :
    result.find? path = document.find? path := by
  induction placements generalizing document with
  | nil => rw [Except.ok.inj h]
  | cons placement rest ih =>
    obtain ⟨between, hfirst, hrest⟩ := writeAll_cons_ok.mp h
    rw [ih hrest fun p hp => hf p (by simp [hp])]
    exact find?_write_of_forks hfirst (hf placement (by simp))

/-- A written value is found when the other writes avoid its place or repeat it. -/
theorem find?_writeAll {placements : List Placement} {path : List Step} {value : Json}
    {document result : Json} (h : writeAll placements document = .ok result)
    (hmem : (path, value) ∈ placements)
    (hf : ∀ placement ∈ placements, Forks placement.1 path ∨ placement = (path, value)) :
    result.find? path = some value := by
  induction placements generalizing document with
  | nil => cases hmem
  | cons placement rest ih =>
    obtain ⟨between, hfirst, hrest⟩ := writeAll_cons_ok.mp h
    have hfrest : ∀ p ∈ rest, Forks p.1 path ∨ p = (path, value) :=
      fun p hp => hf p (by simp [hp])
    by_cases hagain : (path, value) ∈ rest
    · exact ih hrest hagain hfrest
    · have hhead : (path, value) = placement := (List.mem_cons.mp hmem).resolve_right hagain
      subst hhead
      have havoid : ∀ p ∈ rest, Forks p.1 path := fun p hp =>
        (hfrest p hp).resolve_right fun he => hagain (he ▸ hp)
      rw [find?_writeAll_of_forks hrest havoid]
      exact find?_write hfirst

lemma find?_writeAll_single {before after : List Placement} {path below : List Step}
    {value document result : Json}
    (h : writeAll (before ++ (path ++ below, value) :: after) document = .ok result)
    (hbefore : ∀ placement ∈ before, Forks placement.1 path)
    (hafter : ∀ placement ∈ after, Forks placement.1 path) :
    ∃ part, write value below ((document.find? path).getD .null) = .ok part ∧
      result.find? path = some part := by
  obtain ⟨first, hfirst, hrest⟩ := writeAll_append_ok.mp h
  obtain ⟨second, hsecond, hlast⟩ := writeAll_cons_ok.mp hrest
  obtain ⟨part, hpart, hfound⟩ := find?_write_append hsecond
  rw [find?_writeAll_of_forks hfirst hbefore] at hpart
  exact ⟨part, hpart, (find?_writeAll_of_forks hlast hafter).trans hfound⟩

def IsListAt (path : List Step) (document : Json) : Prop :=
  ∃ items, document.find? path = some (.list items)

def IsListOrMissingAt (path : List Step) (document : Json) : Prop :=
  ∀ value, document.find? path = some value → ∃ items, value = .list items

lemma IsListAt.isListOrMissing {path : List Step} {document : Json}
    (h : document.IsListAt path) : document.IsListOrMissingAt path := by
  obtain ⟨items, hitems⟩ := h
  intro value hvalue
  exact ⟨items, Option.some.inj (hvalue.symm.trans hitems)⟩

lemma write_index_list {value : Json} {position : Nat} {rest : List Step} {items : List Json}
    {result : Json} (h : write value (.index position :: rest) (.list items) = .ok result) :
    ∃ written, result = .list written := by
  obtain ⟨child, written, -, hresult, -⟩ := updateItem_ok (by simpa only [write] using h)
  exact ⟨written, hresult⟩

lemma IsListAt.write {value : Json} {path rest : List Step} {position : Nat}
    {document result : Json} (hl : document.IsListAt path)
    (h : Json.write value (path ++ .index position :: rest) document = .ok result) :
    result.IsListAt path := by
  obtain ⟨items, hitems⟩ := hl
  obtain ⟨part, hpart, hfind⟩ := find?_write_append h
  rw [hitems] at hpart
  obtain ⟨written, rfl⟩ := write_index_list hpart
  exact ⟨written, hfind⟩

lemma IsListAt.writeAll {placements : List Placement} {path : List Step} {document result : Json}
    (hl : document.IsListAt path)
    (hp : ∀ placement ∈ placements, ∃ position rest, placement.1 = path ++ .index position :: rest)
    (h : Json.writeAll placements document = .ok result) : result.IsListAt path := by
  induction placements generalizing document with
  | nil => exact Except.ok.inj h ▸ hl
  | cons placement rest ih =>
    obtain ⟨between, hfirst, hrest⟩ := writeAll_cons_ok.mp h
    obtain ⟨position, below, heq⟩ := hp placement (by simp)
    rw [heq] at hfirst
    exact ih (hl.write hfirst) (fun p hmem => hp p (by simp [hmem])) hrest

lemma IsListOrMissingAt.write_zero {value : Json} {path rest : List Step}
    {document result : Json} (hl : document.IsListOrMissingAt path)
    (h : Json.write value (path ++ .index 0 :: rest) document = .ok result) :
    result.IsListAt path := by
  obtain ⟨part, hpart, hfind⟩ := find?_write_append h
  cases hfound : document.find? path with
  | none =>
    rw [hfound, Option.getD_none, ← write_opened] at hpart
    obtain ⟨written, rfl⟩ := write_index_list hpart
    exact ⟨written, hfind⟩
  | some found =>
    obtain ⟨items, rfl⟩ := hl found hfound
    exact IsListAt.write ⟨items, hfound⟩ h

end Json

end RecordMapping

import RecordMapping.Proofs.Document.InPlace
import RecordMapping.Proofs.Document.Writes

namespace RecordMapping

lemma putMember_eq_append (name : String) (members : List Member) :
    ∃ before after, ∀ value, putMember name value members = before ++ (name, value) :: after := by
  induction members with
  | nil => exact ⟨[], [], fun value => rfl⟩
  | cons member rest ih =>
    obtain ⟨key, old⟩ := member
    by_cases hkey : key = name
    · exact ⟨[], rest, fun value => by simp [putMember, hkey]⟩
    · obtain ⟨before, after, h⟩ := ih
      exact ⟨(key, old) :: before, after, fun value => by simp [putMember, hkey, h value]⟩

lemma perm_putMember_putMember {a b : String} (hne : a ≠ b) (first second : Json)
    (members : List Member) :
    (putMember b second (putMember a first members)).Perm
      (putMember a first (putMember b second members)) := by
  induction members with
  | nil =>
    simp only [putMember, if_neg hne, if_neg hne.symm]
    exact List.Perm.swap _ _ _
  | cons member rest ih =>
    obtain ⟨key, old⟩ := member
    by_cases ha : key = a
    · subst ha
      simp [putMember, hne]
    · by_cases hb : key = b
      · subst hb
        simp [putMember, ha]
      · simpa [putMember, ha, hb] using ih

namespace Json

/-- Documents that are the same but for the order of the members of one object. -/
inductive Reordered : Json → Json → Prop where
  | members {first second : List Member} (h : first.Perm second) :
      Reordered (.object first) (.object second)
  | member (before after : List Member) (name : String) {value other : Json}
      (h : Reordered value other) :
      Reordered (.object (before ++ (name, value) :: after))
        (.object (before ++ (name, other) :: after))
  | item (before after : List Json) {value other : Json} (h : Reordered value other) :
      Reordered (.list (before ++ value :: after)) (.list (before ++ other :: after))

section Children

variable {step : Step} {container child : Json}

lemma child?_putChild (h : container.child? step = some child) (other : Json) :
    (putChild step other container).child? step = some other := by
  cases container with
  | object members => simp [putChild, child?, findMember_putMember]
  | list items =>
    cases step with
    | key name => cases h
    | index position =>
      have hlt : position < items.length := (List.getElem?_eq_some_iff.mp h).1
      exact List.getElem?_set_self hlt
  | _ => cases h

lemma putChild_putChild (step : Step) (old value container : Json) :
    putChild step value (putChild step old container) = putChild step value container := by
  cases container with
  | object members => simp only [putChild, putMember_putMember]
  | list items =>
    cases step with
    | key name => rfl
    | index position => simp only [putChild, List.set_set]
  | _ => rfl

lemma Reordered.putChild (h : container.child? step = some child) {value other : Json}
    (hvalue : Reordered value other) :
    Reordered (putChild step value container) (putChild step other container) := by
  cases container with
  | object members =>
    obtain ⟨before, after, hput⟩ := putMember_eq_append step.text members
    simp only [Json.putChild, hput]
    exact .member before after step.text hvalue
  | list items =>
    cases step with
    | key name => cases h
    | index position =>
      have hlt : position < items.length := (List.getElem?_eq_some_iff.mp h).1
      simp only [Json.putChild, List.set_eq_take_append_cons_drop, if_pos hlt]
      exact .item _ _ hvalue
  | _ => cases h

end Children

variable {document result value first second : Json} {step : Step} {rest p q : List Step}
  {a b name : String}

lemma write_cons_ok_iff : write value (step :: rest) document = .ok result ↔
    ∃ child written, (document.withRoom step).child? step = some child ∧
      write value rest child = .ok written ∧
      result = putChild step written (document.withRoom step) := by
  rw [write_cons_eq]
  cases hchild : (document.withRoom step).child? step with
  | none => simp
  | some child =>
    cases hwrite : write value rest child with
    | error conflict => simp [hwrite]
    | ok written => simp [hwrite, eq_comm]

lemma writeAll_cons_ok_iff : writeAll [(step :: p, first), (step :: q, second)] document =
      .ok result ↔
    ∃ child written, (document.withRoom step).child? step = some child ∧
      writeAll [(p, first), (q, second)] child = .ok written ∧
      result = putChild step written (document.withRoom step) := by
  simp only [writeAll_cons_ok, writeAll_nil]
  constructor
  · rintro ⟨between, hfirst, _, hsecond, ⟨rfl⟩⟩
    obtain ⟨child, written, hchild, hwritten, rfl⟩ := write_cons_ok_iff.mp hfirst
    have hplace := child?_putChild hchild written
    obtain ⟨child', written', hchild', hwritten', rfl⟩ := write_cons_ok_iff.mp hsecond
    rw [withRoom_of_child? hplace] at hchild' ⊢
    obtain rfl := Option.some.inj (hplace.symm.trans hchild')
    exact ⟨child, written', hchild, ⟨written, hwritten, written', hwritten', rfl⟩,
      putChild_putChild step written written' _⟩
  · rintro ⟨child, written', hchild, ⟨written, hwritten, _, hwritten', ⟨rfl⟩⟩, rfl⟩
    have hplace := child?_putChild hchild written
    refine ⟨_, write_cons_ok_iff.mpr ⟨child, written, hchild, hwritten, rfl⟩, _, ?_, rfl⟩
    refine write_cons_ok_iff.mpr ⟨written, written', ?_, hwritten', ?_⟩
    · rwa [withRoom_of_child? hplace]
    · rw [withRoom_of_child? hplace, putChild_putChild]

lemma write_key_ok_iff : write value (.key name :: rest) document = .ok result ↔
    ∃ members child, document.opened (.key name) = .object members ∧
      write value rest ((findMember name members).getD .null) = .ok child ∧
      result = .object (putMember name child members) := by
  rw [← write_opened]
  have hne := opened_ne_null (.key name) document
  cases hcontainer : document.opened (.key name) with
  | null => exact absurd hcontainer hne
  | object members =>
    constructor
    · intro h
      obtain ⟨child, hchild, rfl⟩ := updateMember_ok (by simpa only [write] using h)
      exact ⟨members, child, rfl, hchild, rfl⟩
    · rintro ⟨found, child, hfound, hchild, rfl⟩
      obtain rfl := Json.object.inj hfound
      simp only [write, updateMember, Step.text, hchild]
  | _ => simp [write]

lemma opened_key (a b : String) (document : Json) :
    document.opened (.key a) = document.opened (.key b) := by
  cases document <;> rfl

/-- Two writes to different names are two writes in members that are there before both. -/
lemma writeAll_keys_ok_iff (hne : a ≠ b) :
    writeAll [(.key a :: p, first), (.key b :: q, second)] document = .ok result ↔
      ∃ members child other, document.opened (.key a) = .object members ∧
        write first p ((findMember a members).getD .null) = .ok child ∧
        write second q ((findMember b members).getD .null) = .ok other ∧
        result = .object (putMember b other (putMember a child members)) := by
  have hfind (members : List Member) (child : Json) :
      findMember b (putMember a child members) = findMember b members := by
    rw [findMember_putMember, if_neg hne.symm]
  simp only [writeAll_cons_ok, writeAll_nil]
  constructor
  · rintro ⟨between, hfirst, _, hsecond, ⟨rfl⟩⟩
    obtain ⟨members, child, hmembers, hchild, rfl⟩ := write_key_ok_iff.mp hfirst
    obtain ⟨written, other, hwritten, hother, rfl⟩ := write_key_ok_iff.mp hsecond
    obtain rfl := Json.object.inj hwritten
    rw [hfind] at hother
    exact ⟨members, child, other, hmembers, hchild, hother, rfl⟩
  · rintro ⟨members, child, other, hmembers, hchild, hother, rfl⟩
    refine ⟨_, write_key_ok_iff.mpr ⟨members, child, hmembers, hchild, rfl⟩, _, ?_, rfl⟩
    exact write_key_ok_iff.mpr ⟨_, other, rfl, by rwa [hfind], rfl⟩

theorem exists_writeAll_swapped (hne : a ≠ b) (common : List Step)
    (h : writeAll [(common ++ .key a :: p, first), (common ++ .key b :: q, second)] document =
      .ok result) :
    ∃ other, writeAll [(common ++ .key b :: q, second), (common ++ .key a :: p, first)] document =
      .ok other ∧ result.Reordered other := by
  induction common generalizing document result with
  | nil =>
    obtain ⟨members, child, other, hmembers, hchild, hother, rfl⟩ := (writeAll_keys_ok_iff hne).mp h
    refine ⟨_, (writeAll_keys_ok_iff hne.symm).mpr
      ⟨members, other, child, ?_, hother, hchild, rfl⟩, ?_⟩
    · rw [opened_key b a, hmembers]
    · exact .members (perm_putMember_putMember hne child other members)
  | cons step rest ih =>
    obtain ⟨child, written, hchild, hwritten, rfl⟩ := writeAll_cons_ok_iff.mp h
    obtain ⟨other, hother, hreordered⟩ := ih hwritten
    exact ⟨_, writeAll_cons_ok_iff.mpr ⟨child, other, hchild, hother, rfl⟩,
      hreordered.putChild hchild⟩

/-- Writes along two paths that part at different names go through in one order just when they do in
the other, and leave the same document but for the order of the members of one object. -/
theorem writeAll_swap {a b : String} (hne : a ≠ b) (common p q : List Step)
    (first second document : Json) :
    ((∃ result, writeAll [(common ++ .key a :: p, first), (common ++ .key b :: q, second)]
        document = .ok result) ↔
      ∃ result, writeAll [(common ++ .key b :: q, second), (common ++ .key a :: p, first)]
        document = .ok result) ∧
    ∀ result other,
      writeAll [(common ++ .key a :: p, first), (common ++ .key b :: q, second)] document =
        .ok result →
      writeAll [(common ++ .key b :: q, second), (common ++ .key a :: p, first)] document =
        .ok other →
      result.Reordered other := by
  refine ⟨⟨?_, ?_⟩, ?_⟩
  · rintro ⟨result, h⟩
    obtain ⟨other, hother, -⟩ := exists_writeAll_swapped hne common h
    exact ⟨other, hother⟩
  · rintro ⟨other, h⟩
    obtain ⟨result, hresult, -⟩ := exists_writeAll_swapped hne.symm common h
    exact ⟨result, hresult⟩
  · intro result other hresult hother
    obtain ⟨found, hfound, hreordered⟩ := exists_writeAll_swapped hne common hresult
    obtain rfl := Except.ok.inj (hfound.symm.trans hother)
    exact hreordered

/-- The name and the account of an author make the list of authors, whichever comes first. -/
theorem writeAll_swap_author :
    writeAll [([.key "authors", .index 0, .key "name"], .string "Ann"),
        ([.key "authors", .index 0, .key "account", .key "open"], .bool true)]
        (.object [("authors", .null)]) =
      .ok (.object [("authors", .list [.object [("name", .string "Ann"),
        ("account", .object [("open", .bool true)])]])]) ∧
    writeAll [([.key "authors", .index 0, .key "account", .key "open"], .bool true),
        ([.key "authors", .index 0, .key "name"], .string "Ann")]
        (.object [("authors", .null)]) =
      .ok (.object [("authors", .list [.object [("account", .object [("open", .bool true)]),
        ("name", .string "Ann")]])]) ∧
    Reordered
      (.object [("authors", .list [.object [("name", .string "Ann"),
        ("account", .object [("open", .bool true)])]])])
      (.object [("authors", .list [.object [("account", .object [("open", .bool true)]),
        ("name", .string "Ann")]])]) := by
  have hne : "name" ≠ "account" := by decide
  obtain ⟨-, hreordered⟩ := writeAll_swap hne [.key "authors", .index 0] [] [.key "open"]
    (.string "Ann") (.bool true) (.object [("authors", .null)])
  exact ⟨rfl, rfl, hreordered _ _ rfl rfl⟩

end Json

end RecordMapping

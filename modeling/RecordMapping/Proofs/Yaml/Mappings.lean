import RecordMapping.Proofs.Yaml.Contents
import RecordMapping.Yaml.Reading

namespace RecordMapping

namespace Yaml

lemma firstContent?_reverse (tokens : List Token) :
    firstContent? tokens.reverse = (tokens.filter (!·.isProperty)).head? := by
  rw [firstContent?, List.filter_reverse, List.getLast?_reverse]

namespace Assembly

variable {assembly next : Assembly} {node : Node} {properties : Properties} {fuel : ℕ}
  {inBlock unindented : Bool} {tag : Option Tag} {style : ScalarStyle} {text : String}

lemma anchor?_filter (assembly : Assembly) :
    assembly.anchor?.2.rest.filter (!·.isProperty) = assembly.rest.filter (!·.isProperty) ∧
      assembly.anchor?.2.places = assembly.places := by
  unfold anchor?
  split
  · rename_i hrest
    simp [next, hrest, Token.isProperty]
  · exact ⟨rfl, rfl⟩

lemma tag?_filter (h : assembly.tag? = some (tag, next)) :
    next.rest.filter (!·.isProperty) = assembly.rest.filter (!·.isProperty) ∧
      next.places = assembly.places := by
  unfold tag? at h
  split at h
  · rename_i hrest
    obtain ⟨found, -, heq⟩ := Option.map_eq_some_iff.mp h
    cases heq
    simp [Assembly.next, hrest, Token.isProperty]
  · cases h
    exact ⟨rfl, rfl⟩

lemma properties?_filter (h : assembly.properties? = some (properties, next)) :
    next.rest.filter (!·.isProperty) = assembly.rest.filter (!·.isProperty) ∧
      next.places = assembly.places := by
  have hfirst := anchor?_filter assembly
  unfold properties? at h
  split at h
  · rename_i heq
    rw [heq] at hfirst
    obtain ⟨⟨tag, after⟩, htag, hnext⟩ := Option.map_eq_some_iff.mp h
    cases hnext
    obtain ⟨hfilter, hplaces⟩ := tag?_filter htag
    exact ⟨hfilter.trans hfirst.1, hplaces.trans hfirst.2⟩
  · rename_i heq
    rw [heq] at hfirst
    obtain ⟨⟨tag, after⟩, htag, hnext⟩ := Option.map_eq_some_iff.mp h
    cases hnext
    obtain ⟨hfilter, hplaces⟩ := tag?_filter htag
    obtain ⟨hlastFilter, hlastPlaces⟩ := anchor?_filter after
    exact ⟨hlastFilter.trans (hfilter.trans hfirst.1),
      hlastPlaces.trans (hplaces.trans hfirst.2)⟩

/-- What a node may be whose content starts with given tokens: a scalar has the text of the first
one that is no property, or none at all, and it is no alias. -/
inductive Starts (tokens : List Token) : Node → Prop where
  | empty (tag : Option Tag) (style : ScalarStyle) : Starts tokens (.scalar tag style "")
  | scalar (tag : Option Tag) {style : ScalarStyle} {text : String}
      (first : (tokens.filter (!·.isProperty)).head? = some (.scalar text style)) :
      Starts tokens (.scalar tag style text)
  | sequence (tag : Option Tag) (items : List Node) : Starts tokens (.sequence tag items)
  | mapping (tag : Option Tag) (entries : List (Node × Node)) : Starts tokens (.mapping tag entries)

lemma Starts.of_filter {tokens later : List Token} (h : Starts later node)
    (hfilter : later.filter (!·.isProperty) = tokens.filter (!·.isProperty)) :
    Starts tokens node := by
  cases h with
  | empty tag style => exact .empty tag style
  | scalar tag first => exact .scalar tag (hfilter ▸ first)
  | sequence tag items => exact .sequence tag items
  | mapping tag entries => exact .mapping tag entries

lemma starts_of_absent? (h : absent? properties assembly = some (node, next))
    (tokens : List Token) : Starts tokens node := by
  unfold absent? at h
  split_ifs at h
  cases h
  exact .empty _ _

lemma starts_of_content? (h : content? inBlock unindented properties fuel assembly =
    some (node, next)) : Starts assembly.rest node := by
  cases fuel with
  | zero => cases h
  | succ fuel =>
    unfold content? at h
    dsimp only at h
    split at h
    · split_ifs at h
      · obtain ⟨⟨items, after⟩, -, heq⟩ := Option.map_eq_some_iff.mp h
        cases heq
        exact .sequence _ items
      · exact starts_of_absent? h _
    · rename_i hrest
      cases h
      refine .scalar _ ?_
      rw [hrest]
      rfl
    · obtain ⟨⟨items, after⟩, -, heq⟩ := Option.map_eq_some_iff.mp h
      cases heq
      exact .sequence _ items
    · obtain ⟨⟨entries, after⟩, -, heq⟩ := Option.map_eq_some_iff.mp h
      cases heq
      exact .mapping _ entries
    · split_ifs at h
      · obtain ⟨⟨items, after⟩, -, heq⟩ := Option.map_eq_some_iff.mp h
        cases heq
        exact .sequence _ items
      · exact starts_of_absent? h _
    · split_ifs at h
      · obtain ⟨⟨entries, after⟩, -, heq⟩ := Option.map_eq_some_iff.mp h
        cases heq
        exact .mapping _ entries
      · exact starts_of_absent? h _
    · exact starts_of_absent? h _

lemma starts_of_node? (hplaces : assembly.places = [])
    (h : node? inBlock unindented fuel assembly = some (node, next)) :
    Starts assembly.rest node := by
  cases fuel with
  | zero => cases h
  | succ fuel =>
    unfold node? at h
    split at h
    · rw [hplaces] at h
      cases h
    · obtain ⟨⟨properties, after⟩, hproperties, h⟩ := Option.bind_eq_some_iff.mp h
      obtain ⟨hfilter, -⟩ := properties?_filter hproperties
      dsimp only at h
      split at h
      · exact (starts_of_content? h).of_filter hfilter
      · obtain ⟨⟨found, last⟩, hcontent, heq⟩ := Option.bind_eq_some_iff.mp h
        cases heq
        exact (starts_of_content? hcontent).of_filter hfilter

lemma starts_of_blockPart? (hplaces : assembly.places = [])
    (h : blockPart? fuel assembly = some (node, next)) : Starts assembly.rest node := by
  cases fuel with
  | zero => cases h
  | succ fuel =>
    unfold blockPart? at h
    split at h
    · cases h
      exact .empty _ _
    · exact starts_of_node? hplaces h

lemma content?_of_node? {token : Token} {rest : List Token} (hrest : assembly.rest = token :: rest)
    (htoken : token.isProperty = false) (halias : ∀ name, token ≠ .alias name)
    (h : node? inBlock unindented fuel assembly = some (node, next)) :
    ∃ fuel, content? inBlock unindented ⟨none, none⟩ (fuel + 1) assembly = some (node, next) := by
  have hproperties : assembly.properties? = some (⟨none, none⟩, assembly) := by
    cases token <;> simp [properties?, anchor?, tag?, hrest] <;> cases htoken
  cases fuel with
  | zero => cases h
  | succ fuel =>
    unfold node? at h
    rw [hproperties] at h
    split at h
    · rename_i heq
      exact absurd (List.cons.inj (hrest.symm.trans heq)).1 (halias _)
    · cases fuel with
      | zero => cases h
      | succ fuel => exact ⟨fuel, h⟩

lemma node?_of_scalar {rest : List Token} (hrest : assembly.rest = .scalar text style :: rest)
    (h : node? inBlock unindented fuel assembly = some (node, next)) :
    node = .scalar none style text ∧ next = assembly.next := by
  obtain ⟨fuel, hcontent⟩ := content?_of_node? hrest rfl (by simp) h
  rw [content?, hrest] at hcontent
  cases hcontent
  exact ⟨rfl, rfl⟩

lemma blockPart?_of_scalar {rest : List Token} (hrest : assembly.rest = .scalar text style :: rest)
    (h : blockPart? fuel assembly = some (node, next)) :
    node = .scalar none style text ∧ next = assembly.next := by
  cases fuel with
  | zero => cases h
  | succ fuel =>
    unfold blockPart? at h
    split at h
    · rename_i hsees
      simp [sees, hrest] at hsees
    · exact node?_of_scalar hrest h

lemma exists_of_blockEntries? {key : String} {tokens : List Token} {entries : List (Node × Node)}
    (hplaces : assembly.places = [])
    (hrest : assembly.rest = .key :: .scalar key .plain :: .value :: tokens)
    (h : blockEntries? fuel assembly = some (entries, next)) :
    ∃ value others, entries = (.scalar none .plain key, value) :: others ∧ Starts tokens value := by
  cases fuel with
  | zero => cases h
  | succ fuel =>
    unfold blockEntries? at h
    split at h
    · rename_i heq
      rw [hrest] at heq
      cases heq
    · obtain ⟨⟨node, afterKey⟩, hkey, h⟩ := Option.bind_eq_some_iff.mp h
      have hkeyRest : assembly.next.rest = .scalar key .plain :: .value :: tokens := by
        simp [Assembly.next, hrest]
      obtain ⟨rfl, rfl⟩ := blockPart?_of_scalar hkeyRest hkey
      have hvalueRest : assembly.next.next.rest = .value :: tokens := by
        simp [Assembly.next, hrest]
      have hexpect : assembly.next.next.expect? .value = some assembly.next.next.next := by
        simp [expect?, hvalueRest]
      dsimp only at h
      rw [hexpect] at h
      obtain ⟨⟨value, afterValue⟩, hvalue, h⟩ := Option.bind_eq_some_iff.mp h
      obtain ⟨⟨others, last⟩, -, heq⟩ := Option.bind_eq_some_iff.mp h
      cases heq
      refine ⟨value, others, rfl, ?_⟩
      have htokens : assembly.next.next.next.rest = tokens := by
        simp [Assembly.next, hrest]
      exact htokens ▸ starts_of_blockPart? hplaces hvalue
    · cases h

lemma exists_of_blockMapping {tokens : List Token} (hrest : assembly.rest = .blockMapping :: tokens)
    (h : node? true unindented fuel assembly = some (node, next)) :
    ∃ fuel entries after, blockEntries? fuel assembly.next = some (entries, after) ∧
      node = .mapping none entries := by
  obtain ⟨fuel, hcontent⟩ := content?_of_node? hrest rfl (by simp) h
  have hentries : content? true unindented ⟨none, none⟩ (fuel + 1) assembly =
      (blockEntries? fuel assembly.next).map fun read => (.mapping none read.1, read.2) := by
    rw [content?, hrest]
    rfl
  obtain ⟨⟨entries, after⟩, hread, heq⟩ :=
    Option.map_eq_some_iff.mp (hentries.symm.trans hcontent)
  cases heq
  exact ⟨fuel, entries, _, hread, rfl⟩

end Assembly

/-- A document that starts with the key of a block mapping is a mapping whose first entry has the
key. -/
theorem Document.root_of_tokens {key : String} {tokens : List Token} {document : Document}
    (h : Document.ofTokens?
      (.blockMapping :: .key :: .scalar key .plain :: .value :: tokens) = some document) :
    ∃ value others, document.root = .mapping none ((.scalar none .plain key, value) :: others) ∧
      Assembly.Starts tokens value := by
  have hstart : Assembly.afterStart? (decide
      ((Token.blockMapping :: .key :: .scalar key .plain :: .value :: tokens).length <
        (Token.blockMapping :: .key :: .scalar key .plain :: .value :: tokens).length))
      (.blockMapping :: .key :: .scalar key .plain :: .value :: tokens) =
      some (.blockMapping :: .key :: .scalar key .plain :: .value :: tokens, false) := by
    simp [Assembly.afterStart?]
  unfold Document.ofTokens? at h
  simp only [Assembly.directives?, Option.bind_eq_bind, Option.bind_some, hstart] at h
  obtain ⟨⟨root, assembly⟩, hdocument, h⟩ := Option.bind_eq_some_iff.mp h
  dsimp only at h
  split_ifs at h
  cases h
  obtain ⟨_, entries, _, hentries, hroot⟩ := Assembly.exists_of_blockMapping rfl hdocument
  subst hroot
  obtain ⟨value, others, rfl, hstarts⟩ := Assembly.exists_of_blockEntries? rfl rfl hentries
  exact ⟨value, others, rfl, hstarts⟩

end Yaml

end RecordMapping

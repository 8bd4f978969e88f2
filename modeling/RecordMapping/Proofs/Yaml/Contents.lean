import RecordMapping.Proofs.Yaml.Lines

/-!
# The first content among tokens

Of the tokens behind some others, the first one that is no property tells what node they start with.
The scanner only puts tokens at the end or where a simple key began, so this token never turns into
a scalar again. Main statement: what every step of the scanner may be, and that no step takes back a
scalar that comes first.
-/

namespace RecordMapping

namespace Yaml

namespace Token

def isProperty : Token → Bool
  | .anchor _ => true
  | .tag _ _ => true
  | _ => false

/-- Whether a token belongs to the structure of a document: it is no property and no scalar. -/
def isStructural : Token → Bool
  | .anchor _ => false
  | .tag _ _ => false
  | .scalar _ _ => false
  | _ => true

variable {token : Token}

lemma isProperty_of_isStructural (h : token.isStructural) : token.isProperty = false := by
  cases token <;> simp_all [isStructural, isProperty]

lemma ne_scalar_of_isStructural (h : token.isStructural) (text : String) (style : ScalarStyle) :
    token ≠ .scalar text style := by
  rintro rfl
  cases h

end Token

/-- Of tokens, the last one first, the first one that is no property. -/
def firstContent? (later : List Token) : Option Token := (later.filter (!·.isProperty)).getLast?

variable {token : Token} {tokens later front back base : List Token} {text : String}
  {style : ScalarStyle} {allowed : String → Prop} {decided : Prop}

lemma firstContent?_append (front back : List Token) :
    firstContent? (front ++ back) = (firstContent? back).or (firstContent? front) := by
  simp [firstContent?, List.getLast?_append]

lemma firstContent?_property (h : token.isProperty) (later : List Token) :
    firstContent? (token :: later) = firstContent? later := by
  simp [firstContent?, h]

lemma firstContent?_singleton (h : token.isProperty = false) :
    firstContent? [token] = some token := by
  simp [firstContent?, h]

lemma firstContent?_cons (h : token.isProperty = false) (later : List Token) :
    firstContent? (token :: later) = (firstContent? later).or (some token) := by
  have happend := firstContent?_append [token] later
  rwa [firstContent?_singleton h] at happend

/-- Tokens behind given ones that, if they start with a scalar, start with one of an allowed text;
once it is decided they do start with something. -/
def Leads (allowed : String → Prop) (decided : Prop) (base tokens : List Token) : Prop :=
  ∃ later, tokens = later ++ base ∧
    (∀ text style, firstContent? later = some (.scalar text style) → allowed text) ∧
    (decided → firstContent? later ≠ none)

namespace Leads

lemma property (h : Leads allowed decided base tokens) (hproperty : token.isProperty) :
    Leads allowed decided base (token :: tokens) := by
  obtain ⟨later, rfl, hallowed, hdecided⟩ := h
  refine ⟨token :: later, rfl, ?_, ?_⟩
  · rwa [firstContent?_property hproperty]
  · rwa [firstContent?_property hproperty]

lemma weaken {weaker : Prop} (h : Leads allowed decided base tokens) (hweaker : weaker → decided) :
    Leads allowed weaker base tokens := by
  obtain ⟨later, hlater, hallowed, hdecided⟩ := h
  exact ⟨later, hlater, hallowed, hdecided ∘ hweaker⟩

lemma cons (h : Leads allowed decided base tokens) (hproperty : token.isProperty = false)
    (hscalar : decided ∨ ∀ text style, token = .scalar text style → allowed text) :
    Leads allowed True base (token :: tokens) := by
  obtain ⟨later, rfl, hallowed, hdecided⟩ := h
  refine ⟨token :: later, rfl, ?_, ?_⟩
  · intro text style hcontent
    rw [firstContent?_cons hproperty] at hcontent
    cases hlater : firstContent? later with
    | none =>
      rw [hlater] at hcontent
      obtain hdecision | hscalar := hscalar
      · exact absurd hlater (hdecided hdecision)
      · exact hscalar text style (Option.some.inj hcontent)
    | some first =>
      rw [hlater] at hcontent
      exact hallowed text style (hlater.trans hcontent)
  · intro _
    rw [firstContent?_cons hproperty]
    cases firstContent? later <;> simp

lemma structural (h : Leads allowed decided base tokens) (htoken : token.isStructural) :
    Leads allowed True base (token :: tokens) :=
  h.cons (Token.isProperty_of_isStructural htoken)
    (.inr fun text style heq => absurd heq (Token.ne_scalar_of_isStructural htoken text style))

/-- A token that is put behind the given ones does not make a scalar the first content. -/
lemma insert {before : ℕ} (h : Leads allowed decided base tokens) (htoken : token.isStructural)
    (hbefore : base.length ≤ before) :
    Leads allowed decided base (tokens.take (tokens.length - before) ++
      token :: tokens.drop (tokens.length - before)) := by
  obtain ⟨later, rfl, hallowed, hdecided⟩ := h
  have hproperty := Token.isProperty_of_isStructural htoken
  have hle : (later ++ base).length - before ≤ later.length := by
    rw [List.length_append]
    omega
  generalize (later ++ base).length - before = count at hle
  refine ⟨later.take count ++ token :: later.drop count, ?_, ?_, ?_⟩
  · rw [List.take_append_of_le_length hle, List.drop_append_of_le_length hle, List.append_assoc,
      List.cons_append]
  · intro text style hcontent
    rw [firstContent?_append, firstContent?_cons hproperty] at hcontent
    cases hback : firstContent? (later.drop count) with
    | none =>
      rw [hback] at hcontent
      exact absurd (Option.some.inj hcontent) (Token.ne_scalar_of_isStructural htoken text style)
    | some first =>
      rw [hback] at hcontent
      apply hallowed text style
      rw [← List.take_append_drop count later, firstContent?_append, hback]
      exact hcontent
  · intro _
    rw [firstContent?_append, firstContent?_cons hproperty]
    cases firstContent? (later.drop count) <;> simp

end Leads

namespace Scanner

variable {scanner next : Scanner} {column before : ℕ} {opening : Token}

/-- A state whose tokens start with given ones, and lead on as it is allowed. All possible simple
keys begin behind the given tokens. -/
structure Follows (allowed : String → Prop) (decided : Prop) (base : List Token)
    (scanner : Scanner) : Prop where
  leads : Leads allowed decided base scanner.tokens
  keys : ∀ key, some key ∈ scanner.keys → base.length ≤ key.before

namespace Follows

lemma mem_of_mem_none_cons {key : SimpleKey} {outer : List (Option SimpleKey)}
    (h : some key ∈ none :: outer) : some key ∈ outer := by
  simpa using h

lemma of_eq (h : Follows allowed decided base scanner) (htokens : next.tokens = scanner.tokens)
    (hkeys : ∀ key, some key ∈ next.keys → some key ∈ scanner.keys) :
    Follows allowed decided base next :=
  ⟨htokens ▸ h.leads, fun key hkey => h.keys key (hkeys key hkey)⟩

lemma length_le (h : Follows allowed decided base scanner) :
    base.length ≤ scanner.tokens.length := by
  obtain ⟨later, hlater, -⟩ := h.leads
  simp [hlater]

lemma structural (h : Follows allowed decided base scanner) (htoken : token.isStructural)
    (htokens : next.tokens = token :: scanner.tokens)
    (hkeys : ∀ key, some key ∈ next.keys → some key ∈ scanner.keys) :
    Follows allowed True base next :=
  ⟨htokens ▸ h.leads.structural htoken, fun key hkey => h.keys key (hkeys key hkey)⟩

lemma openBlock (h : Follows allowed decided base scanner) (htoken : opening.isStructural)
    (hbefore : base.length ≤ before) :
    Follows allowed decided base (scanner.openBlock column before opening) := by
  unfold Scanner.openBlock
  split
  · exact ⟨h.leads.insert htoken hbefore, h.keys⟩
  · exact h

lemma closeIndents {column : ℤ} {indents : List ℤ} (h : Leads allowed decided base tokens) :
    Leads allowed decided base (Scanner.closeIndents column indents tokens).2 := by
  induction indents generalizing tokens with
  | nil => exact h
  | cons indent outer ih =>
    unfold Scanner.closeIndents
    split
    · exact ih ((h.structural rfl).weaken fun _ => trivial)
    · exact h

lemma closeBlocks {column : ℤ} (h : Follows allowed decided base scanner) :
    Follows allowed decided base (scanner.closeBlocks column) := by
  unfold Scanner.closeBlocks
  split
  · exact h
  · exact ⟨closeIndents h.leads, h.keys⟩

lemma dropKey? (h : Follows allowed decided base scanner) (hdrop : scanner.dropKey? = some next) :
    Follows allowed decided base next := by
  unfold Scanner.dropKey? at hdrop
  split at hdrop
  · rename_i key outer hkeys
    split_ifs at hdrop
    cases hdrop
    refine h.of_eq rfl fun key hkey => ?_
    rw [hkeys]
    exact List.mem_cons_of_mem _ (mem_of_mem_none_cons hkey)
  · cases hdrop
    exact h

lemma markKey? (h : Follows allowed decided base scanner) (hmark : scanner.markKey? = some next) :
    Follows allowed decided base next := by
  unfold Scanner.markKey? at hmark
  split at hmark
  · obtain ⟨dropped, hdrop, rfl⟩ := Option.map_eq_some_iff.mp hmark
    have hdropped := h.dropKey? hdrop
    refine ⟨hdropped.leads, fun key hkey => ?_⟩
    obtain heq | htail := List.mem_cons.mp hkey
    · cases heq
      exact hdropped.length_le
    · exact hdropped.keys key (List.mem_of_mem_tail htail)
  · cases hmark
    exact h

lemma mem_of_expireKeys {cursor : Cursor} {keys rest : List (Option SimpleKey)}
    (h : keys.mapM (expireKey? cursor) = some rest) (key : SimpleKey) (hkey : some key ∈ rest) :
    some key ∈ keys := by
  induction keys generalizing rest with
  | nil =>
    cases h
    exact hkey
  | cons first keys ih =>
    rw [List.mapM_cons] at h
    obtain ⟨kept, hkept, h⟩ := Option.bind_eq_some_iff.mp h
    obtain ⟨others, hothers, h⟩ := Option.bind_eq_some_iff.mp h
    cases h
    obtain heq | hmem := List.mem_cons.mp hkey
    · subst heq
      unfold expireKey? at hkept
      split at hkept
      · cases hkept
      · split_ifs at hkept
        · cases hkept
        · cases hkept
          exact List.mem_cons_self
    · exact List.mem_cons_of_mem _ (ih hothers hmem)

lemma expireKeys? (h : Follows allowed decided base scanner)
    (hexpire : scanner.expireKeys? = some next) : Follows allowed decided base next := by
  obtain ⟨keys, hkeys, rfl⟩ := Option.map_eq_some_iff.mp hexpire
  exact h.of_eq rfl (mem_of_expireKeys hkeys)

lemma closeAll? (h : Follows allowed decided base scanner)
    (hclose : scanner.closeAll? = some next) : Follows allowed decided base next := by
  obtain ⟨dropped, hdrop, rfl⟩ := Option.map_eq_some_iff.mp hclose
  exact (h.closeBlocks.dropKey? hdrop).of_eq rfl fun key hkey => hkey

lemma documentMark? (h : Follows allowed decided base scanner) (htoken : token.isStructural)
    (hmark : scanner.documentMark? token = some next) : Follows allowed True base next := by
  obtain ⟨closed, hclose, rfl⟩ := Option.map_eq_some_iff.mp hmark
  exact (h.closeAll? hclose).structural htoken rfl fun key hkey => hkey

lemma openFlow? (h : Follows allowed decided base scanner) (htoken : token.isStructural)
    (hopen : scanner.openFlow? token = some next) : Follows allowed True base next := by
  obtain ⟨marked, hmark, rfl⟩ := Option.map_eq_some_iff.mp hopen
  exact (h.markKey? hmark).structural htoken rfl fun key hkey =>
    mem_of_mem_none_cons hkey

lemma closeFlow? (h : Follows allowed decided base scanner) (htoken : token.isStructural)
    (hclose : scanner.closeFlow? token = some next) : Follows allowed True base next := by
  obtain ⟨dropped, hdrop, rfl⟩ := Option.map_eq_some_iff.mp hclose
  refine (h.dropKey? hdrop).structural htoken rfl fun key hkey => ?_
  change some key ∈ (if dropped.inFlow then dropped.keys.tail else dropped.keys) at hkey
  split at hkey
  · exact List.mem_of_mem_tail hkey
  · exact hkey

lemma comma? (h : Follows allowed decided base scanner) (hcomma : scanner.comma? = some next) :
    Follows allowed True base next := by
  obtain ⟨dropped, hdrop, rfl⟩ := Option.map_eq_some_iff.mp hcomma
  have htoken : Token.comma.isStructural := rfl
  exact (h.dropKey? hdrop).structural htoken rfl fun key hkey => hkey

lemma blockIndicator? {keyAfter : Bool} (h : Follows allowed decided base scanner)
    (hopening : opening.isStructural) (htoken : token.isStructural)
    (hindicator : scanner.blockIndicator? opening token keyAfter = some next) :
    Follows allowed True base next := by
  unfold Scanner.blockIndicator? at hindicator
  split at hindicator
  · cases hindicator
  · obtain ⟨dropped, hdrop, rfl⟩ := Option.map_eq_some_iff.mp hindicator
    have hopened := (h.openBlock hopening h.length_le).dropKey? hdrop
    exact hopened.structural htoken rfl fun key hkey => hkey

lemma value? (h : Follows allowed decided base scanner) (hvalue : scanner.value? = some next) :
    Follows allowed True base next := by
  have hvalueToken : Token.value.isStructural := rfl
  unfold Scanner.value? at hvalue
  split at hvalue
  · rename_i key outer hkeys
    have hbefore := h.keys key (hkeys ▸ List.mem_cons_self)
    have hinsert : Follows allowed decided base (scanner.insert key.before .key) :=
      ⟨h.leads.insert rfl hbefore, h.keys⟩
    have hopened : Follows allowed decided base
        ((scanner.insert key.before .key).openBlock key.column key.before .blockMapping) :=
      hinsert.openBlock rfl hbefore
    cases hvalue
    refine ⟨hopened.leads.structural hvalueToken, fun other hother => ?_⟩
    refine h.keys other ?_
    rw [hkeys]
    exact List.mem_cons_of_mem _ (mem_of_mem_none_cons hother)
  · split at hvalue
    · cases hvalue
    · have hopened : Follows allowed decided base
          (scanner.openBlock scanner.cursor.column scanner.tokens.length .blockMapping) :=
        h.openBlock rfl h.length_le
      cases hvalue
      exact ⟨hopened.leads.structural hvalueToken, hopened.keys⟩

lemma isStructural_of_directiveToken? {name : String} {content rest : List Char}
    (h : directiveToken? name content = some (token, rest)) : token.isStructural := by
  unfold directiveToken? at h
  split at h
  · obtain ⟨⟨major, later⟩, -, h⟩ := Option.bind_eq_some_iff.mp h
    dsimp only at h
    split at h
    · obtain ⟨⟨minor, _⟩, -, heq⟩ := Option.map_eq_some_iff.mp h
      cases heq
      rfl
    · cases h
  · split at h
    · dsimp only at h
      split_ifs at h <;>
      · obtain ⟨start, -, heq⟩ := Option.map_eq_some_iff.mp h
        cases heq
        rfl
    · cases h
  · cases h

lemma directive? (h : Follows allowed decided base scanner)
    (hdirective : scanner.directive? = some next) : Follows allowed True base next := by
  obtain ⟨closed, hclose, hdirective⟩ := Option.bind_eq_some_iff.mp hdirective
  dsimp only at hdirective
  split at hdirective
  · cases hdirective
  · split at hdirective
    · cases hdirective
    · rename_i hread
      split at hdirective
      · cases hdirective
        exact (h.closeAll? hclose).structural (isStructural_of_directiveToken? hread) rfl
          fun key hkey => hkey
      · cases hdirective

lemma alias? (h : Follows allowed decided base scanner)
    (halias : scanner.named? .alias = some next) : Follows allowed True base next := by
  obtain ⟨marked, hmark, halias⟩ := Option.bind_eq_some_iff.mp halias
  dsimp only at halias
  split at halias
  · cases halias
  · cases halias
    have htoken (name : String) : (Token.alias name).isStructural := rfl
    exact (h.markKey? hmark).structural (htoken _) rfl fun key hkey => hkey

lemma anchor? (h : Follows allowed decided base scanner)
    (hanchor : scanner.named? .anchor = some next) : Follows allowed decided base next := by
  obtain ⟨marked, hmark, hanchor⟩ := Option.bind_eq_some_iff.mp hanchor
  dsimp only at hanchor
  split at hanchor
  · cases hanchor
  · cases hanchor
    have hmarked := h.markKey? hmark
    exact ⟨hmarked.leads.property rfl, hmarked.keys⟩

lemma tag? (h : Follows allowed decided base scanner) (htag : scanner.tag? = some next) :
    Follows allowed decided base next := by
  obtain ⟨marked, hmark, htag⟩ := Option.bind_eq_some_iff.mp htag
  dsimp only at htag
  split at htag
  · cases htag
  · split at htag
    · cases htag
      have hmarked := h.markKey? hmark
      exact ⟨hmarked.leads.property rfl, hmarked.keys⟩
    · cases htag

lemma scalar (h : Follows allowed decided base scanner) (hallowed : decided ∨ allowed text)
    (htokens : next.tokens = .scalar text style :: scanner.tokens)
    (hkeys : ∀ key, some key ∈ next.keys → some key ∈ scanner.keys) :
    Follows allowed True base next := by
  refine ⟨htokens ▸ h.leads.cons rfl (hallowed.imp_right fun hallowed other otherStyle heq => ?_),
    fun key hkey => h.keys key (hkeys key hkey)⟩
  cases heq
  exact hallowed

end Follows

/-- What a step may be that starts with a character before a text: it gives out a token of the
structure, a property or a scalar. -/
inductive Fetched (c : Char) (rest : List Char) (scanner next : Scanner) : Prop where
  | structural (h : ∀ {allowed : String → Prop} {decided : Prop} {base : List Token},
      Follows allowed decided base scanner → Follows allowed True base next)
  | anchor (hc : c = '&') (h : scanner.named? .anchor = some next)
  | tag (hc : c = '!') (h : scanner.tag? = some next)
  | block (folded : Bool) (hc : c = if folded then '>' else '|')
      (h : scanner.block? folded = some next)
  | quoted (hc : c = '"' ∨ c = '\'') (h : scanner.quoted? c = some next)
  | plain (hbegins : scanner.inFlow = false → beginsPlain (c :: rest))
      (h : scanner.plain? = some next)

theorem fetched_of_fetch? {c : Char} {rest : List Char}
    (h : scanner.fetch? c rest = some next) : Fetched c rest scanner next := by
  unfold fetch? at h
  obtain ⟨-, h⟩ | ⟨-, h⟩ := ite_eq_iff.mp h
  · exact .structural fun hfollows => hfollows.directive? h
  obtain ⟨-, h⟩ | ⟨-, h⟩ := ite_eq_iff.mp h
  · exact .structural fun hfollows => hfollows.documentMark? rfl h
  obtain ⟨-, h⟩ | ⟨-, h⟩ := ite_eq_iff.mp h
  · exact .structural fun hfollows => hfollows.documentMark? rfl h
  obtain ⟨-, h⟩ | ⟨-, h⟩ := ite_eq_iff.mp h
  · exact .structural fun hfollows => hfollows.openFlow? rfl h
  obtain ⟨-, h⟩ | ⟨-, h⟩ := ite_eq_iff.mp h
  · exact .structural fun hfollows => hfollows.openFlow? rfl h
  obtain ⟨-, h⟩ | ⟨-, h⟩ := ite_eq_iff.mp h
  · exact .structural fun hfollows => hfollows.closeFlow? rfl h
  obtain ⟨-, h⟩ | ⟨-, h⟩ := ite_eq_iff.mp h
  · exact .structural fun hfollows => hfollows.closeFlow? rfl h
  obtain ⟨-, h⟩ | ⟨-, h⟩ := ite_eq_iff.mp h
  · exact .structural fun hfollows => hfollows.comma? h
  obtain ⟨-, h⟩ | ⟨hentry, h⟩ := ite_eq_iff.mp h
  · exact .structural fun hfollows => hfollows.blockIndicator? rfl rfl h
  obtain ⟨-, h⟩ | ⟨-, h⟩ := ite_eq_iff.mp h
  · exact .structural fun hfollows => hfollows.blockIndicator? rfl rfl h
  obtain ⟨-, h⟩ | ⟨-, h⟩ := ite_eq_iff.mp h
  · exact .structural fun hfollows => hfollows.value? h
  obtain ⟨-, h⟩ | ⟨-, h⟩ := ite_eq_iff.mp h
  · exact .structural fun hfollows => hfollows.alias? h
  obtain ⟨hanchor, h⟩ | ⟨-, h⟩ := ite_eq_iff.mp h
  · exact .anchor (beq_iff_eq.mp hanchor) h
  obtain ⟨htag, h⟩ | ⟨-, h⟩ := ite_eq_iff.mp h
  · exact .tag (beq_iff_eq.mp htag) h
  obtain ⟨hliteral, h⟩ | ⟨-, h⟩ := ite_eq_iff.mp h
  · rw [Bool.and_eq_true, beq_iff_eq] at hliteral
    exact .block false hliteral.1 h
  obtain ⟨hfolded, h⟩ | ⟨-, h⟩ := ite_eq_iff.mp h
  · rw [Bool.and_eq_true, beq_iff_eq] at hfolded
    exact .block true hfolded.1 h
  obtain ⟨hquote, h⟩ | ⟨-, h⟩ := ite_eq_iff.mp h
  · rw [Bool.or_eq_true, beq_iff_eq, beq_iff_eq] at hquote
    exact .quoted hquote.symm h
  obtain ⟨hplain, h⟩ | ⟨-, h⟩ := ite_eq_iff.mp h
  · refine .plain (fun hflow => ?_) h
    rw [hflow] at hplain
    simp only [Bool.and_eq_true, beq_iff_eq, not_and, Bool.not_eq_true] at hentry
    simp only [startsPlain, Bool.not_false, Bool.true_and, Bool.or_eq_true, Bool.and_eq_true,
      beq_iff_eq] at hplain
    simp only [beginsPlain, Bool.or_eq_true, Bool.and_eq_true]
    obtain (hordinary | ⟨rfl, -⟩) | ⟨hmark, hends⟩ := hplain
    · exact .inl hordinary
    · exact .inr ⟨rfl, by simpa using hentry rfl⟩
    · refine .inr ⟨?_, hends⟩
      obtain rfl | rfl := hmark <;> rfl
  · cases h

end Scanner

end Yaml

end RecordMapping

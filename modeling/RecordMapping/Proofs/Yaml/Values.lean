import RecordMapping.Proofs.Yaml.Blocks
import RecordMapping.Proofs.Yaml.Contents
import RecordMapping.Proofs.Yaml.Entries

/-!
# Values in a line

What the scanner reads from the value of a mapping on stays the text of the line or less, whatever
the text holds. Main statement: if the first content there is a scalar of the text itself, the text
is a plain line.
-/

namespace RecordMapping

namespace Yaml

namespace Scanner

variable {scanner marked next last : Scanner} {allowed : String → Prop} {decided : Prop}
  {base : List Token} {cursor : Cursor} {fuel : ℕ}

lemma dropKey?_eq (h : scanner.dropKey? = some next) :
    next.cursor = scanner.cursor ∧ next.indents = scanner.indents ∧
      next.keys.length = scanner.keys.length := by
  unfold dropKey? at h
  split at h
  · rename_i hkeys
    split_ifs at h
    cases h
    simp [hkeys]
  · cases h
    exact ⟨rfl, rfl, rfl⟩

lemma markKey?_eq (h : scanner.markKey? = some marked) :
    marked.cursor = scanner.cursor ∧ marked.indents = scanner.indents ∧
      (scanner.keys.length = 1 → marked.keys.length = 1) := by
  unfold markKey? at h
  split at h
  · obtain ⟨dropped, hdrop, rfl⟩ := Option.map_eq_some_iff.mp h
    obtain ⟨hcursor, hindents, hkeys⟩ := dropKey?_eq hdrop
    refine ⟨hcursor, hindents, fun hone => ?_⟩
    simp [hkeys, hone]
  · cases h
    exact ⟨rfl, rfl, id⟩

namespace Follows

lemma block? {folded : Bool} (h : Follows allowed decided base scanner)
    (hallowed : decided ∨ ∀ text after,
      Yaml.block? folded scanner.indent scanner.cursor = some (text, after) →
        allowed (String.ofList text))
    (hblock : scanner.block? folded = some next) : Follows allowed True base next := by
  obtain ⟨dropped, hdrop, hblock⟩ := Option.bind_eq_some_iff.mp hblock
  obtain ⟨⟨text, after⟩, hread, rfl⟩ := Option.map_eq_some_iff.mp hblock
  obtain ⟨hcursor, hindents, -⟩ := dropKey?_eq hdrop
  rw [hcursor, indent, hindents] at hread
  exact (h.dropKey? hdrop).scalar (hallowed.imp_right fun hallowed => hallowed text after hread) rfl
    fun key hkey => hkey

lemma quoted? {quote : Char} (h : Follows allowed decided base scanner)
    (hallowed : decided ∨ ∀ text after, Yaml.quoted? quote scanner.cursor = some (text, after) →
      allowed (String.ofList text))
    (hquoted : scanner.quoted? quote = some next) : Follows allowed True base next := by
  obtain ⟨marked, hmark, hquoted⟩ := Option.bind_eq_some_iff.mp hquoted
  obtain ⟨⟨text, after⟩, hread, rfl⟩ := Option.map_eq_some_iff.mp hquoted
  rw [(markKey?_eq hmark).1] at hread
  exact (h.markKey? hmark).scalar (hallowed.imp_right fun hallowed => hallowed text after hread) rfl
    fun key hkey => hkey

lemma plain? (h : Follows allowed decided base scanner)
    (hallowed : decided ∨ scanner.keys.length = 1 ∧ ∀ text after broken,
      Yaml.plain? false scanner.innerColumn scanner.cursor = some (text, after, broken) →
        allowed (String.ofList text))
    (hplain : scanner.plain? = some next) : Follows allowed True base next := by
  obtain ⟨marked, hmark, hplain⟩ := Option.bind_eq_some_iff.mp hplain
  obtain ⟨⟨text, after, broken⟩, hread, rfl⟩ := Option.map_eq_some_iff.mp hplain
  obtain ⟨hcursor, hindents, hkeys⟩ := markKey?_eq hmark
  refine (h.markKey? hmark).scalar (hallowed.imp_right fun ⟨hone, hallowed⟩ => ?_) rfl
    fun key hkey => hkey
  have hflow : marked.inFlow = false := by simp [inFlow, hkeys hone]
  rw [hcursor, hflow, innerColumn, indent, hindents] at hread
  exact hallowed text after broken hread

lemma fetch? {c : Char} {rest : List Char} (h : Follows allowed True base scanner)
    (hfetch : scanner.fetch? c rest = some next) : Follows allowed True base next := by
  cases fetched_of_fetch? hfetch with
  | structural hstructural => exact hstructural h
  | anchor _ hanchor => exact h.anchor? hanchor
  | tag _ htag => exact h.tag? htag
  | block folded _ hblock => exact h.block? (.inl trivial) hblock
  | quoted _ hquoted => exact h.quoted? (.inl trivial) hquoted
  | plain _ hplain => exact h.plain? (.inl trivial) hplain

end Follows

lemma run?_cases (h : run? (fuel + 1) scanner = some last) :
    ∃ place keyAllowed valid,
      scanner.cursor.toToken scanner.inFlow (scanner.cursor.rest.length + 1) scanner.keyAllowed =
        (place, keyAllowed) ∧
      expireKeys? { scanner with cursor := place, keyAllowed := keyAllowed } = some valid ∧
      (place.rest = [] ∧ (valid.closeBlocks place.column).finish? = some last ∨
        ∃ c rest next, place.rest = c :: rest ∧
          (valid.closeBlocks place.column).fetch? c rest = some next ∧
          run? fuel next = some last) := by
  unfold run? at h
  dsimp only at h
  split at h
  · cases h
  · rename_i valid hvalid
    refine ⟨_, _, valid, rfl, hvalid, ?_⟩
    split at h
    · rename_i hrest
      exact .inl ⟨hrest, h⟩
    · rename_i c rest hrest
      split at h
      · cases h
      · rename_i next hnext
        exact .inr ⟨c, rest, next, hrest, hnext, h⟩

theorem Follows.run? (h : Follows allowed True base scanner)
    (hrun : run? fuel scanner = some last) : Follows allowed True base last := by
  induction fuel generalizing scanner with
  | zero => cases hrun
  | succ fuel ih =>
    obtain ⟨place, keyAllowed, valid, -, hvalid, hcases⟩ := run?_cases hrun
    have hplace : Follows allowed True base
        { scanner with cursor := place, keyAllowed := keyAllowed } :=
      h.of_eq rfl fun key hkey => hkey
    have hclosed : Follows allowed True base (valid.closeBlocks place.column) :=
      (hplace.expireKeys? hvalid).closeBlocks
    obtain ⟨-, hfinish⟩ | ⟨c, rest, next, -, hfetch, hrest⟩ := hcases
    · exact hclosed.closeAll? hfinish
    · exact ih (hclosed.fetch? hfetch) hrest

end Scanner

variable {tail m : List Char} {cursor : Cursor} {fuel : ℕ}

lemma Reaches.toToken {keyAllowed : Bool} (htail : StartsWord tail) (h : Reaches tail m cursor) :
    Reaches tail m (cursor.toToken false fuel keyAllowed).1 := by
  induction fuel generalizing cursor keyAllowed with
  | zero => exact h
  | succ fuel ih =>
    obtain hwithin | ⟨hrest, hcolumn⟩ := h
    · unfold Cursor.toToken
      dsimp only
      have hmark : Within tail m
          (if cursor.column == 0 && cursor.rest.head?.any isOrderMark then cursor.skip 1
            else cursor) := by
        split
        · rename_i hmark
          rw [Bool.and_eq_true, Option.any_eq_true] at hmark
          obtain ⟨-, c, hhead, hc⟩ := hmark
          refine hwithin.skip_one hhead ?_
          rintro rfl
          cases hc
        · exact hwithin
      generalize (if cursor.column == 0 && cursor.rest.head?.any isOrderMark then cursor.skip 1
        else cursor) = start at hmark
      have hblanks := hmark.skipWhile
        (p := fun c => c == ' ' || (c == '\t' && (false || !keyAllowed))) rfl
      generalize (start.skipWhile fun c => c == ' ' || (c == '\t' && (false || !keyAllowed))) =
        place at hblanks
      have hcomment : Within tail m
          (if place.sees '#' then place.skipWhile (!isBreak ·) else place) := by
        split
        · exact hblanks.skipWhile rfl
        · exact hblanks
      generalize (if place.sees '#' then place.skipWhile (!isBreak ·) else place) = stop
        at hcomment
      split
      · exact ih hcomment.skipBreak
      · exact .inl hcomment
    · obtain ⟨c, rest, rfl, hc⟩ := htail
      have hmark := (ordinary_of_isAlphanum hc).2.2.1
      rw [Cursor.toToken_of_startsToken hrest (startsToken_of_isAlphanum hc) (.inr hmark)]
      exact .inr ⟨hrest, hcolumn⟩

lemma Within.skip_tagParts? {handle : String} {suffix : TagText} {length : ℕ}
    (h : Within tail m cursor)
    (htag : Scanner.tagParts? cursor.rest = some (handle, suffix, length)) :
    Within tail m (cursor.skip length) := by
  unfold Scanner.tagParts? at htag
  split at htag
  · rename_i rest hrest
    dsimp only at htag
    split_ifs at htag with hnone
    obtain ⟨_, -, heq⟩ := Option.map_eq_some_iff.mp htag
    cases heq
    simp only [Bool.or_eq_true, not_or, bne_iff_ne, ne_eq, not_not] at hnone
    have hopen : Within tail m (cursor.skip 1) := h.skip_one (by rw [hrest]; rfl) (by decide)
    have hopenRest : (cursor.skip 1).rest = rest := by simp [Cursor.skip, hrest]
    have haddress : Within tail m
        ((cursor.skip 1).skip (rest.takeWhile (Scanner.isTagChar true)).length) :=
      hopen.skip (p := Scanner.isTagChar true) (by decide) (by rw [hopenRest])
    have hclose : '>' ∈
        ((cursor.skip 1).skip (rest.takeWhile (Scanner.isTagChar true)).length).rest.head? := by
      rw [Cursor.skip, hopenRest, List.head?_drop]
      exact hnone.2
    have hend := haddress.skip_one hclose (by decide)
    rw [Cursor.skip_skip, Cursor.skip_skip] at hend
    rwa [Nat.add_comm 1] at hend
  · dsimp only at htag
    split at htag
    · rename_i rest hrest
      split_ifs at htag
      obtain ⟨_, -, heq⟩ := Option.map_eq_some_iff.mp htag
      cases heq
      have hname := h.skipWhile (p := isNameChar) (by decide)
      have hnameRest : (cursor.skipWhile isNameChar).rest = '!' :: rest := hrest
      have hmark := hname.skip_one (by rw [hnameRest]; rfl) (c := '!') (by decide)
      have hmarkRest : ((cursor.skipWhile isNameChar).skip 1).rest = rest := by
        simp [Cursor.skip, hnameRest]
      have hend := hmark.skipWhile (p := Scanner.isTagChar false) (by decide)
      rw [Cursor.skipWhile, hmarkRest, Cursor.skipWhile, Cursor.skip_skip, Cursor.skip_skip,
        ← Nat.add_assoc] at hend
      exact hend
    · split_ifs at htag
      · cases htag
        exact h
      · obtain ⟨_, -, heq⟩ := Option.map_eq_some_iff.mp htag
        cases heq
        exact h.skipWhile (p := Scanner.isTagChar false) (by decide)

namespace Scanner

variable {scanner next last : Scanner} {name : List Char}

/-- A state in a line of an outermost block mapping, outside flow collections. -/
structure InLine (tail name : List Char) (scanner : Scanner) : Prop where
  place : Reaches tail name scanner.cursor
  indents : scanner.indents = [0]
  keys : scanner.keys.length = 1

lemma length_of_expireKeys {keys rest : List (Option SimpleKey)}
    (h : keys.mapM (expireKey? cursor) = some rest) : rest.length = keys.length := by
  induction keys generalizing rest with
  | nil =>
    cases h
    rfl
  | cons first keys ih =>
    rw [List.mapM_cons] at h
    obtain ⟨kept, -, h⟩ := Option.bind_eq_some_iff.mp h
    obtain ⟨others, hothers, h⟩ := Option.bind_eq_some_iff.mp h
    cases h
    rw [List.length_cons, List.length_cons, ih hothers]

lemma InLine.anchor (h : InLine tail name scanner)
    (hrest : Within tail name scanner.cursor) (hhead : scanner.cursor.rest.head? = some '&')
    (hanchor : scanner.named? .anchor = some next) : InLine tail name next := by
  obtain ⟨marked, hmark, hanchor⟩ := Option.bind_eq_some_iff.mp hanchor
  obtain ⟨hcursor, hindents, hkeys⟩ := markKey?_eq hmark
  dsimp only at hanchor
  split at hanchor
  · cases hanchor
  · cases hanchor
    refine ⟨.inl ?_, hindents.trans h.indents, hkeys h.keys⟩
    have hend := (hrest.skip_one hhead (by decide)).skipWhile (p := isNameChar) (by decide)
    rw [Cursor.skipWhile, Cursor.skip_skip, Nat.add_comm] at hend
    change Within tail name (marked.cursor.skip _)
    rw [hcursor]
    exact hend

lemma InLine.tag (h : InLine tail name scanner)
    (hrest : Within tail name scanner.cursor) (hhead : scanner.cursor.rest.head? = some '!')
    (htag : scanner.tag? = some next) : InLine tail name next := by
  obtain ⟨marked, hmark, htag⟩ := Option.bind_eq_some_iff.mp htag
  obtain ⟨hcursor, hindents, hkeys⟩ := markKey?_eq hmark
  dsimp only at htag
  split at htag
  · cases htag
  · rename_i handle suffix length hparts
    split at htag
    · cases htag
      refine ⟨.inl ?_, hindents.trans h.indents, hkeys h.keys⟩
      rw [hcursor] at hparts
      have hend := (hrest.skip_one hhead (by decide)).skip_tagParts? hparts
      rw [Cursor.skip_skip, Nat.add_comm] at hend
      change Within tail name (marked.cursor.skip _)
      rw [hcursor]
      exact hend
    · cases htag

/-- What comes behind a line so that no scalar of the line reaches into it: a line that starts with
a word which is a plain line of its own, and neither a backslash nor an apostrophe. -/
structure Closes (tail : List Char) : Prop where
  starts : StartsWord tail
  backslash : '\\' ∉ tail
  apostrophe : '\'' ∉ tail
  plain : ∀ {indent : ℕ} {cursor after : Cursor} {text : List Char} {broken : Bool},
    cursor.rest = tail → cursor.column = 0 →
      Yaml.plain? false indent cursor = some (text, after, broken) → isPlainLine text

variable {c : Char} {rest text : List Char} {after : Cursor}

lemma InLine.within (h : InLine tail name scanner) (htail : StartsWord tail)
    (hrest : scanner.cursor.rest = c :: rest) (hc : c.isAlphanum = false) :
    Within tail name scanner.cursor := by
  obtain hwithin | ⟨hplace, -⟩ := h.place
  · exact hwithin
  · obtain ⟨d, others, rfl, hd⟩ := htail
    rw [hrest] at hplace
    cases hplace
    simp [hd] at hc

lemma exists_cons_of_within {cursor : Cursor} (h : Within tail name cursor)
    (hrest : cursor.rest = c :: rest) (hc : c ≠ '\n') :
    ∃ left, c :: left <:+ name ∧ rest = left ++ '\n' :: tail := by
  obtain ⟨left, hleft, hcursor⟩ := h
  cases left with
  | nil =>
    rw [hrest] at hcursor
    cases hcursor
    exact absurd rfl hc
  | cons d left =>
    rw [hrest] at hcursor
    cases hcursor
    exact ⟨left, hleft, rfl⟩

lemma InLine.block {folded : Bool} {outer : ℤ} (htail : Closes tail) (h : InLine tail name scanner)
    (hrest : scanner.cursor.rest = c :: rest) (hc : c = if folded then '>' else '|')
    (hread : Yaml.block? folded outer scanner.cursor = some (text, after)) : text ≠ name := by
  have hmark : ¬ IsSpace c ∧ c.isAlphanum = false ∧ c ≠ '\n' := by
    subst hc
    cases folded <;> simp [IsSpace, isGap, isBreak]
  obtain ⟨hspace, hword, hbreak⟩ := hmark
  obtain ⟨left, hleft, rfl⟩ :=
    exists_cons_of_within (h.within htail.starts hrest hword) hrest hbreak
  have hbehind : Within tail left (scanner.cursor.skip 1) :=
    ⟨left, List.suffix_refl _, by simp [Cursor.skip, hrest]⟩
  have hcount := block?_count htail.starts hspace hbehind hread
  have hname := hleft.sublist.count_le c
  rw [List.count_cons_self] at hname
  rintro rfl
  omega

lemma weight_line_eq_zero {weightOf : Char → ℕ} (mark : Char) (hmark : mark ∉ '\n' :: tail)
    (hweight : ∀ c, c ≠ mark → weightOf c = 0) : weight weightOf ('\n' :: tail) = 0 :=
  weight_eq_zero fun c hc => hweight c fun heq => hmark (heq ▸ hc)

lemma InLine.quoted (htail : Closes tail) (h : InLine tail name scanner)
    (hrest : scanner.cursor.rest = c :: rest) (hc : c = '"' ∨ c = '\'')
    (hread : Yaml.quoted? c scanner.cursor = some (text, after)) : text ≠ name := by
  have hmark : c.isAlphanum = false ∧ c ≠ '\n' := by
    obtain rfl | rfl := hc <;> decide
  obtain ⟨left, hleft, rfl⟩ :=
    exists_cons_of_within (h.within htail.starts hrest hmark.1) hrest hmark.2
  obtain rfl | rfl := hc
  · refine balanced_double.quoted?_ne (by decide) ?_ ?_ hleft hrest hread
    · intro c
      exact Nat.le_add_left _ _
    · refine weight_line_eq_zero '\\' (by simp [htail.backslash]) fun c hne => ?_
      simp [doubleSource, hne]
  · refine balanced_single.quoted?_ne (by decide) ?_ ?_ hleft hrest hread
    · intro c
      unfold singleSource singleText
      split <;> simp
    · refine weight_line_eq_zero '\'' (by simp [htail.apostrophe]) fun c hne => ?_
      simp [singleSource, hne]

lemma InLine.plain {broken : Bool} (htail : Closes tail) (hall : name.all isAllowed)
    (h : InLine tail name scanner) (hrest : scanner.cursor.rest = c :: rest)
    (hbegins : beginsPlain (c :: rest))
    (hread : Yaml.plain? false scanner.innerColumn scanner.cursor = some (text, after, broken))
    (hname : text = name) : isPlainLine name := by
  subst hname
  obtain ⟨left, hleft, hplace⟩ | ⟨hplace, hcolumn⟩ := h.place
  · have hindent : 1 ≤ scanner.innerColumn := by
      rw [innerColumn, indent, h.indents]
      decide
    obtain hshort | ⟨rfl, hgoes⟩ := plain?_within hindent htail.starts hplace hread
    · have hle := hleft.length_le
      omega
    · cases text with
      | nil => rfl
      | cons d more =>
        rw [hrest] at hplace
        cases hplace
        rw [isPlainLine, Bool.or_eq_true, Bool.and_eq_true]
        refine .inr ⟨?_, hgoes hall⟩
        have hends : endsWord (more.append ('\n' :: tail)) = endsWord more :=
          endsWord_append_newline more tail
        rwa [beginsPlain, hends] at hbegins
  · exact htail.plain hplace hcolumn hread

/-- The name of a line may be a scalar of its own only if it is a plain line. -/
def PlainOnly (name : List Char) (text : String) : Prop := text.toList = name → isPlainLine name

variable {base : List Token} {decided : Prop}

/-- A step in a line gives out a first content that is the whole line only if that is a plain line,
or a property, and then stays in the line. -/
lemma InLine.fetch? (htail : Closes tail) (hall : name.all isAllowed) (h : InLine tail name scanner)
    (hfollows : Follows (PlainOnly name) decided base scanner)
    (hrest : scanner.cursor.rest = c :: rest) (hfetch : scanner.fetch? c rest = some next) :
    Follows (PlainOnly name) True base next ∨
      InLine tail name next ∧ Follows (PlainOnly name) decided base next := by
  have hhead : scanner.cursor.rest.head? = some c := by rw [hrest]; rfl
  cases fetched_of_fetch? hfetch with
  | structural hstructural => exact .inl (hstructural hfollows)
  | anchor hc hanchor =>
    subst hc
    exact .inr ⟨h.anchor (h.within htail.starts hrest rfl) hhead hanchor, hfollows.anchor? hanchor⟩
  | tag hc htag =>
    subst hc
    exact .inr ⟨h.tag (h.within htail.starts hrest rfl) hhead htag, hfollows.tag? htag⟩
  | block folded hc hblock =>
    refine .inl (hfollows.block? (.inr fun text after hread hname => ?_) hblock)
    rw [String.toList_ofList] at hname
    exact absurd hname (h.block htail hrest hc hread)
  | quoted hc hquoted =>
    refine .inl (hfollows.quoted? (.inr fun text after hread hname => ?_) hquoted)
    rw [String.toList_ofList] at hname
    exact absurd hname (h.quoted htail hrest hc hread)
  | plain hbegins hplain =>
    have hflow : scanner.inFlow = false := by simp [inFlow, h.keys]
    refine .inl (hfollows.plain? (.inr ⟨h.keys, fun text after broken hread hname => ?_⟩) hplain)
    rw [String.toList_ofList] at hname
    exact h.plain htail hall hrest (hbegins hflow) hread hname

/-- What a run comes to from a line on: if the first content is a scalar of the text of the line,
that is a plain line. -/
theorem follows_of_run? (htail : Closes tail) (hall : name.all isAllowed)
    (hplace : Reaches tail name
      (scanner.cursor.toToken false (scanner.cursor.rest.length + 1) scanner.keyAllowed).1)
    (hindents : scanner.indents = [0]) (hkeys : scanner.keys.length = 1)
    (hfollows : Follows (PlainOnly name) decided base scanner)
    (hrun : run? fuel scanner = some last) : Follows (PlainOnly name) decided base last := by
  induction fuel generalizing scanner with
  | zero => cases hrun
  | succ fuel ih =>
    obtain ⟨place, keyAllowed, valid, htoken, hvalid, hcases⟩ := run?_cases hrun
    have hflow : scanner.inFlow = false := by simp [inFlow, hkeys]
    rw [← hflow, htoken] at hplace
    obtain ⟨keys, hexpire, rfl⟩ := Option.map_eq_some_iff.mp hvalid
    have hline : InLine tail name ⟨place, scanner.tokens, scanner.indents, keys, keyAllowed⟩ :=
      ⟨hplace, hindents, (length_of_expireKeys hexpire).trans hkeys⟩
    have hvalidFollows : Follows (PlainOnly name) decided base
        ⟨place, scanner.tokens, scanner.indents, keys, keyAllowed⟩ :=
      hfollows.of_eq rfl (Follows.mem_of_expireKeys hexpire)
    have hclosed : closeBlocks place.column
        ⟨place, scanner.tokens, scanner.indents, keys, keyAllowed⟩ =
        ⟨place, scanner.tokens, scanner.indents, keys, keyAllowed⟩ := by
      apply closeBlocks_of_le
      rw [indent, hindents]
      exact Int.natCast_nonneg _
    dsimp only at hcases
    rw [hclosed] at hcases
    obtain ⟨-, hfinish⟩ | ⟨c, rest, next, hrest, hfetch, hnext⟩ := hcases
    · exact hvalidFollows.closeAll? hfinish
    · obtain hdone | ⟨hstay, hstayFollows⟩ := hline.fetch? htail hall hvalidFollows hrest hfetch
      · have hlast := hdone.run? hnext
        exact ⟨hlast.leads.weaken fun _ => trivial, hlast.keys⟩
      · exact ih (hstay.place.toToken htail.starts) hstay.indents hstay.keys hstayFollows hnext

end Scanner

end Yaml

end RecordMapping

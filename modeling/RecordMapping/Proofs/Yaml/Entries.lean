import RecordMapping.Proofs.Yaml.Lines

namespace RecordMapping

namespace Yaml

variable {cursor after : Cursor} {word tail rest text : List Char} {c : Char} {fuel : ℕ}

/-- Whether a token may start with a character: with no blank, no break and no comment. -/
def startsToken (c : Char) : Bool := !isGap c && !isBreak c && c != '#'

lemma startsToken_of_isAlphanum (h : c.isAlphanum) : startsToken c := by
  obtain ⟨hgap, hbreak, -, hindicator⟩ := ordinary_of_isAlphanum h
  have hcomment : c ≠ '#' := by
    rintro rfl
    cases hindicator
  simp [startsToken, hgap, hbreak, hcomment]

namespace Cursor

variable {inFlow keyAllowed : Bool}

lemma skip_zero (cursor : Cursor) : cursor.skip 0 = cursor := rfl

lemma toToken_of_startsToken (hrest : cursor.rest = c :: rest) (hc : startsToken c)
    (hmark : cursor.column ≠ 0 ∨ isOrderMark c = false) :
    cursor.toToken inFlow (fuel + 1) keyAllowed = (cursor, keyAllowed) := by
  simp only [startsToken, Bool.and_eq_true, Bool.not_eq_true', bne_iff_ne] at hc
  obtain ⟨⟨hgap, hbreak⟩, hcomment⟩ := hc
  simp only [isGap, Bool.or_eq_false_iff] at hgap
  have hstay : (cursor.column == 0 && cursor.rest.head?.any isOrderMark) = false := by
    obtain hcolumn | hordinary := hmark
    · simp [hcolumn]
    · simp [hrest, hordinary]
  simp only [toToken, hstay]
  simp [skipWhile, hrest, hgap, skip_zero, sees, hcomment, atBreak, hbreak]

lemma toToken_space (hrest : cursor.rest = ' ' :: rest) (hcolumn : cursor.column ≠ 0) :
    cursor.toToken inFlow (fuel + 1) keyAllowed =
      (cursor.skip 1).toToken inFlow (fuel + 1) keyAllowed := by
  have hskip (test : Char → Bool) (h : test ' ') :
      cursor.skipWhile test = (cursor.skip 1).skipWhile test := by
    simp only [skipWhile, hrest, List.takeWhile_cons_of_pos h, List.length_cons, skip_skip]
    simp [skip, hrest, Nat.add_comm]
  have hmark : (cursor.column == 0) = false := by simpa using hcolumn
  have hnext : ((cursor.skip 1).column == 0) = false := by simp [skip]
  simp only [toToken, hmark, hnext, Bool.false_and, Bool.false_eq_true, if_false]
  rw [hskip _ rfl]

lemma toToken_newline (hrest : cursor.rest = '\n' :: rest) :
    cursor.toToken false (fuel + 1) keyAllowed =
      Cursor.toToken false fuel true ⟨rest, cursor.index + 1, cursor.line + 1, 0⟩ := by
  have hmark : isOrderMark '\n' = false := rfl
  have hbreak : isBreak '\n' := rfl
  simp [toToken, hrest, hmark, skipWhile, skip_zero, sees, atBreak, hbreak,
    skipBreak_newline hrest]

lemma toToken_comment (hcomment : '#' ∈ text.head?) (htext : ∀ c ∈ text, isBreak c = false)
    (hrest : cursor.rest = text ++ '\n' :: rest) :
    cursor.toToken false (fuel + 1) keyAllowed =
      Cursor.toToken false fuel true
        ⟨rest, cursor.index + text.length + 1, cursor.line + 1, 0⟩ := by
  obtain ⟨others, rfl⟩ := List.head?_eq_some_iff.mp hcomment
  have hmark : isOrderMark '#' = false := rfl
  have hbreak : isBreak '\n' := rfl
  have hline : cursor.rest.takeWhile (!isBreak ·) = '#' :: others := by
    rw [hrest, List.takeWhile_append_of_pos (by simpa using htext)]
    simp [hbreak]
  have hend : (cursor.skip ('#' :: others).length).rest = '\n' :: rest := by
    simp [skip, hrest]
  have hskip : cursor.skipWhile (!isBreak ·) = cursor.skip ('#' :: others).length := by
    rw [skipWhile, hline]
  have hblanks : (cursor.skipWhile fun c => c == ' ' || (c == '\t' && (false || !keyAllowed))) =
      cursor := by
    simp [skipWhile, hrest, skip_zero]
  have hstart : cursor.rest.head? = some '#' := by simp [hrest]
  simp only [toToken, hstart, Option.any_some, hmark, Bool.and_false, Bool.false_eq_true, if_false,
    hblanks, sees, beq_self_eq_true, if_true, hskip, atBreak, hend, List.head?_cons, hbreak,
    skipBreak_newline hend]
  simp [skip]

end Cursor

/-- A word up to the colon of a key is a plain scalar of its own. -/
lemma plain?_of_colon {inFlow : Bool} {indent : ℕ}
    (hword : plainWord? inFlow cursor.rest = some word) (hne : word ≠ [])
    (hmark : cursor.atDocumentMark = false) (hcomment : cursor.sees '#' = false)
    (hrest : cursor.rest = word ++ ':' :: tail) :
    plain? inFlow indent cursor = some (word, cursor.skip word.length, false) := by
  obtain ⟨fuel, hfuel⟩ : ∃ fuel, cursor.rest.length = fuel + 1 :=
    ⟨word.length + tail.length, by simp [hrest]; omega⟩
  obtain ⟨c, others, rfl⟩ := List.exists_cons_of_ne_nil hne
  have hends : endsWord (cursor.skip (c :: others).length).rest = false := by
    simp [Cursor.skip, hrest, endsWord, isGap, isBreak]
  simp only [plain?, hfuel, plainFrom?, hmark, hcomment, hword, hends]
  rfl

namespace Scanner

variable {scanner next : Scanner}

lemma atMark_eq_false {mark : Char} (hrest : cursor.rest = c :: rest) (hc : c ≠ mark) :
    cursor.atMark mark = false := by
  simp [Cursor.atMark, hrest, hc]

lemma fetch?_of_beginsPlain (hflow : scanner.inFlow = false)
    (hmark : scanner.cursor.atMark '-' = false) (hdots : scanner.cursor.atMark '.' = false)
    (hbegins : beginsPlain (c :: rest)) : scanner.fetch? c rest = scanner.plain? := by
  simp only [beginsPlain, Bool.or_eq_true, Bool.and_eq_true, Bool.not_eq_true'] at hbegins
  obtain ⟨hindicator, hgap⟩ | ⟨hword, hends⟩ := hbegins
  · have hstarts : startsPlain false c rest := by simp [startsPlain, hindicator, hgap]
    simp only [isIndicator, List.contains_cons, List.contains_nil, Bool.or_false,
      Bool.or_eq_false_iff, beq_eq_false_iff_ne] at hindicator
    simp [fetch?, hmark, hdots, hflow, hindicator, hstarts]
  · have hhead : rest.head?.any isGap = false := by
      cases rest with
      | nil => rfl
      | cons d rest =>
        rw [endsWord, Bool.or_eq_false_iff] at hends
        exact hends.1
    rw [List.contains_iff_mem] at hword
    have hstarts : startsPlain false c rest := by
      fin_cases hword <;> simp [startsPlain, hhead, hends]
    fin_cases hword <;> simp [fetch?, hmark, hdots, hflow, hends, hstarts]

lemma closeBlocks_of_le {column : ℤ} (h : scanner.indent ≤ column) :
    scanner.closeBlocks column = scanner := by
  obtain ⟨place, tokens, indents, keys, keyAllowed⟩ := scanner
  have hclose : closeIndents column indents tokens = (indents, tokens) := by
    cases indents with
    | nil => rfl
    | cons indent outer =>
      rw [closeIndents, if_neg]
      exact not_lt.mpr h
  unfold closeBlocks
  split
  · rfl
  · simp only [hclose]

lemma run?_of_fetch? {keyAllowed : Bool}
    (hplace : scanner.cursor.toToken scanner.inFlow (scanner.cursor.rest.length + 1)
      scanner.keyAllowed = (cursor, keyAllowed))
    (hkeys : scanner.keys.mapM (expireKey? cursor) = some scanner.keys)
    (hindent : scanner.indent ≤ cursor.column) (hrest : cursor.rest = c :: rest)
    (hfetch : fetch? c rest { scanner with cursor := cursor, keyAllowed := keyAllowed } =
      some next) :
    run? (fuel + 1) scanner = run? fuel next := by
  have hclose : closeBlocks cursor.column
      { scanner with cursor := cursor, keyAllowed := keyAllowed } =
        { scanner with cursor := cursor, keyAllowed := keyAllowed } := closeBlocks_of_le hindent
  simp only [run?, hplace, expireKeys?, hkeys, Option.map_some, hclose, hrest, hfetch]

lemma run?_plain {broken : Bool} (hkeys : scanner.keys = [none])
    (hplace : scanner.cursor.toToken false (scanner.cursor.rest.length + 1) scanner.keyAllowed =
      (cursor, false))
    (hindent : scanner.indent ≤ cursor.column) (hcolumn : cursor.column ≠ 0)
    (hrest : cursor.rest = c :: rest) (hbegins : beginsPlain (c :: rest))
    (hread : Yaml.plain? false scanner.innerColumn cursor = some (text, after, broken)) :
    run? (fuel + 1) scanner =
      run? fuel ⟨after, .scalar (String.ofList text) .plain :: scanner.tokens, scanner.indents,
        [none], broken⟩ := by
  obtain ⟨place, tokens, indents, keys, keyAllowed⟩ := scanner
  subst hkeys
  have hmark (mark : Char) : cursor.atMark mark = false := by simp [Cursor.atMark, hcolumn]
  have hfetch : fetch? c rest ⟨cursor, tokens, indents, [none], false⟩ =
      plain? ⟨cursor, tokens, indents, [none], false⟩ :=
    fetch?_of_beginsPlain rfl (hmark _) (hmark _) hbegins
  have hscalar : plain? ⟨cursor, tokens, indents, [none], false⟩ =
      (Yaml.plain? false (innerColumn ⟨place, tokens, indents, [none], keyAllowed⟩) cursor).map
        fun read => ⟨read.2.1, .scalar (String.ofList read.1) .plain :: tokens, indents, [none],
          read.2.2⟩ := rfl
  rw [hscalar, hread] at hfetch
  exact run?_of_fetch? hplace rfl hindent hrest hfetch

lemma run?_doubleQuoted (hkeys : scanner.keys = [none])
    (hplace : scanner.cursor.toToken false (scanner.cursor.rest.length + 1) scanner.keyAllowed =
      (cursor, false))
    (hindent : scanner.indent ≤ cursor.column) (hcolumn : cursor.column ≠ 0)
    (hrest : cursor.rest = '"' :: rest)
    (hread : Yaml.quoted? '"' cursor = some (text, after)) :
    run? (fuel + 1) scanner =
      run? fuel ⟨after, .scalar (String.ofList text) .doubleQuoted :: scanner.tokens,
        scanner.indents, [none], false⟩ := by
  obtain ⟨place, tokens, indents, keys, keyAllowed⟩ := scanner
  subst hkeys
  have hmark (mark : Char) : cursor.atMark mark = false := by simp [Cursor.atMark, hcolumn]
  have hfetch : fetch? '"' rest ⟨cursor, tokens, indents, [none], false⟩ =
      quoted? '"' ⟨cursor, tokens, indents, [none], false⟩ := by
    simp [fetch?, hmark]
  have hscalar : quoted? '"' ⟨cursor, tokens, indents, [none], false⟩ =
      (Yaml.quoted? '"' cursor).map fun read =>
        ⟨read.2, .scalar (String.ofList read.1) .doubleQuoted :: tokens, indents, [none],
          false⟩ := rfl
  rw [hscalar, hread] at hfetch
  exact run?_of_fetch? hplace rfl hindent hrest hfetch

variable {tokens : List Token} {indents : List ℤ} {key : SimpleKey} {scalar : Token}

/-- The indentations and the tokens after a block mapping was opened at a column, if lines there are
indented more than those around them. -/
def openMapping (column : ℕ) (indents : List ℤ) (tokens : List Token) : List ℤ × List Token :=
  if indents.headD (-1) < column then (column :: indents, .blockMapping :: tokens)
  else (indents, tokens)

/-- The state after a key of a block mapping and its colon. -/
def afterKey (word tail : List Char) (place : Cursor) (scanner : Scanner) : Scanner :=
  let opened := openMapping place.column scanner.indents scanner.tokens
  ⟨⟨tail, place.index + (word.length + 1), place.line, place.column + (word.length + 1)⟩,
    .value :: .scalar (String.ofList word) .plain :: .key :: opened.2, opened.1, [none], false⟩

lemma insert_length (token : Token) (later tokens : List Token) (keys : List (Option SimpleKey))
    (keyAllowed : Bool) :
    insert tokens.length token ⟨cursor, later ++ tokens, indents, keys, keyAllowed⟩ =
      ⟨cursor, later ++ token :: tokens, indents, keys, keyAllowed⟩ := by
  have hlater : (later ++ tokens).length - tokens.length = later.length := by simp
  simp only [insert, hlater, List.take_left', List.drop_left']

lemma openBlock_length (column : ℕ) (later tokens : List Token) (marked : Option SimpleKey)
    (keyAllowed : Bool) :
    openBlock column tokens.length .blockMapping
        ⟨cursor, later ++ tokens, indents, [marked], keyAllowed⟩ =
      ⟨cursor, later ++ (openMapping column indents tokens).2,
        (openMapping column indents tokens).1, [marked], keyAllowed⟩ := by
  rw [openBlock, insert_length, openMapping]
  by_cases hdeeper : indents.headD (-1) < column
  · rw [if_pos hdeeper, if_pos]
    simpa [inFlow, indent] using hdeeper
  · rw [if_neg hdeeper, if_neg]
    simpa [inFlow, indent] using hdeeper

lemma value?_simpleKey (hbefore : key.before = tokens.length) :
    value? ⟨cursor, scalar :: tokens, indents, [some key], false⟩ =
      some ⟨cursor.skip 1, .value :: scalar :: .key :: (openMapping key.column indents tokens).2,
        (openMapping key.column indents tokens).1, [none], false⟩ := by
  have hkey : insert tokens.length .key ⟨cursor, scalar :: tokens, indents, [some key], false⟩ =
      ⟨cursor, scalar :: .key :: tokens, indents, [some key], false⟩ :=
    insert_length .key [scalar] tokens [some key] false
  have hopen : openBlock key.column tokens.length .blockMapping
      ⟨cursor, scalar :: .key :: tokens, indents, [some key], false⟩ =
      ⟨cursor, scalar :: .key :: (openMapping key.column indents tokens).2,
        (openMapping key.column indents tokens).1, [some key], false⟩ :=
    openBlock_length key.column [scalar, .key] tokens (some key) false
  simp only [value?, hbefore, hkey, hopen]
  rfl

lemma run?_word (hkeys : scanner.keys = [none])
    (hplace : scanner.cursor.toToken false (scanner.cursor.rest.length + 1) scanner.keyAllowed =
      (cursor, true))
    (hindent : scanner.indent ≤ cursor.column) (hword : StartsWord word)
    (hplain : plainWord? false cursor.rest = some word)
    (hrest : cursor.rest = word ++ ':' :: tail) :
    run? (fuel + 1) scanner =
      run? fuel ⟨cursor.skip word.length,
        .scalar (String.ofList word) .plain :: scanner.tokens, scanner.indents,
        [some ⟨scanner.tokens.length, cursor.index, cursor.line, cursor.column,
          scanner.indent == cursor.column⟩], false⟩ := by
  obtain ⟨place, tokens, indents, keys, keyAllowed⟩ := scanner
  subst hkeys
  obtain ⟨c, others, rfl, hc⟩ := hword
  obtain ⟨hgap, -, -, hindicator⟩ := ordinary_of_isAlphanum hc
  have hne {mark : Char} (hordinary : mark.isAlphanum = false) : c ≠ mark := by
    rintro rfl
    simp [hc] at hordinary
  have hmark (mark : Char) (hordinary : mark.isAlphanum = false) : cursor.atMark mark = false :=
    atMark_eq_false hrest (hne hordinary)
  have hcomment : cursor.sees '#' = false := by
    simp [Cursor.sees, hrest, @hne '#' rfl]
  have hbegins : beginsPlain (c :: (others ++ ':' :: tail)) := by
    simp [beginsPlain, hgap, hindicator]
  have hdocument : cursor.atDocumentMark = false := by
    rw [Cursor.atDocumentMark, hmark '-' rfl, hmark '.' rfl]
    rfl
  have hfetch : fetch? c (others ++ ':' :: tail) ⟨cursor, tokens, indents, [none], true⟩ =
      plain? ⟨cursor, tokens, indents, [none], true⟩ :=
    fetch?_of_beginsPlain rfl (hmark _ rfl) (hmark _ rfl) hbegins
  have hscalar : plain? ⟨cursor, tokens, indents, [none], true⟩ =
      (Yaml.plain? false (innerColumn ⟨cursor, tokens, indents, [none], true⟩) cursor).map
        fun read => ⟨read.2.1, .scalar (String.ofList read.1) .plain :: tokens, indents,
          [some ⟨tokens.length, cursor.index, cursor.line, cursor.column,
            indents.headD (-1) == cursor.column⟩], read.2.2⟩ := rfl
  rw [hscalar, plain?_of_colon hplain (by simp) hdocument hcomment hrest] at hfetch
  exact run?_of_fetch? hplace rfl hindent hrest hfetch

lemma run?_colon (hrest : cursor.rest = ':' :: tail) (htail : endsWord tail)
    (hcolumn : cursor.column ≠ 0) (hindent : indents.headD (-1) ≤ cursor.column)
    (hkey : expireKey? cursor (some key) = some (some key))
    (hbefore : key.before = tokens.length) :
    run? (fuel + 1) ⟨cursor, scalar :: tokens, indents, [some key], false⟩ =
      run? fuel ⟨cursor.skip 1,
        .value :: scalar :: .key :: (openMapping key.column indents tokens).2,
        (openMapping key.column indents tokens).1, [none], false⟩ := by
  have hmark (mark : Char) : cursor.atMark mark = false := by simp [Cursor.atMark, hcolumn]
  have hfetch : fetch? ':' tail ⟨cursor, scalar :: tokens, indents, [some key], false⟩ =
      value? ⟨cursor, scalar :: tokens, indents, [some key], false⟩ := by
    simp [fetch?, hmark, htail]
  rw [value?_simpleKey hbefore] at hfetch
  exact run?_of_fetch? (Cursor.toToken_of_startsToken hrest rfl (.inl hcolumn)) (by simp [hkey])
    hindent hrest hfetch

/-- A word before a colon is a key, where a simple key may start. -/
theorem run?_key (hkeys : scanner.keys = [none])
    (hplace : scanner.cursor.toToken false (scanner.cursor.rest.length + 1) scanner.keyAllowed =
      (cursor, true))
    (hindent : scanner.indent ≤ cursor.column) (hword : StartsWord word)
    (hplain : plainWord? false cursor.rest = some word) (hrest : cursor.rest = word ++ ':' :: tail)
    (hlimit : word.length ≤ keyLimit) (htail : endsWord tail) :
    run? (fuel + 2) scanner = run? fuel (afterKey word tail cursor scanner) := by
  have hcolon : (cursor.skip word.length).rest = ':' :: tail := by simp [Cursor.skip, hrest]
  have hcolumn : (cursor.skip word.length).column ≠ 0 := by
    obtain ⟨c, others, rfl, -⟩ := hword
    simp [Cursor.skip]
  have hdeep : scanner.indents.headD (-1) ≤ (cursor.skip word.length).column := by
    have hle : scanner.indents.headD (-1) ≤ cursor.column := hindent
    simp only [Cursor.skip]
    omega
  have hvalid {before : ℕ} {required : Bool} :
      expireKey? (cursor.skip word.length)
        (some ⟨before, cursor.index, cursor.line, cursor.column, required⟩) =
      some (some ⟨before, cursor.index, cursor.line, cursor.column, required⟩) := by
    rw [expireKey?, if_neg]
    simp only [Cursor.skip, not_or, not_lt]
    omega
  rw [run?_word hkeys hplace hindent hword hplain hrest,
    run?_colon hcolon htail hcolumn hdeep hvalid rfl, Cursor.skip_skip]
  simp [afterKey, Cursor.skip, hrest]

end Scanner

end Yaml

end RecordMapping

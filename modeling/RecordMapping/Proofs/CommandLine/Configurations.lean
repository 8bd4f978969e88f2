import RecordMapping.CommandLine.Scaffold
import RecordMapping.Proofs.Definition.Names
import RecordMapping.Proofs.Yaml.Values

namespace RecordMapping

namespace Scaffold

open Yaml

lemma toList_textOf (lines : List String) :
    (textOf lines).toList = lines.flatMap fun line => line.toList ++ ['\n'] := by
  simp only [textOf, String.toList_join, List.flatMap_map, String.toList_append]
  rfl

def title : List Char := "# xentity project configuration".toList

def remark : List Char :=
  "# Expression dialect for entity types that do not set one: simple | jsonpath".toList

def settingsText : List Char :=
  "default_dialect: simple".toList ++ '\n' :: '\n' :: ("vars:".toList ++ '\n' ::
    ("  environment: development".toList ++ ['\n']))

def laterText : List Char :=
  "version: \"0.1.0\"".toList ++ '\n' :: '\n' :: (remark ++ '\n' :: settingsText)

lemma toList_config (name : String) :
    (config name).toList =
      title ++ '\n' :: ("name".toList ++ ':' :: ' ' :: (name.toList ++ '\n' :: laterText)) := by
  simp only [config, toList_textOf, List.flatMap_cons, List.flatMap_nil, String.toList_append,
    List.append_assoc]
  rfl

def settingsAt (index count line column : ℕ) : Cursor :=
  ⟨settingsText.drop count, index + count, line, column⟩

variable {scanner : Scanner} {cursor : Cursor} {tokens : List Token} {index line fuel : ℕ}

def laterTokens : List Token :=
  [.key, .scalar "version" .plain, .value, .scalar "0.1.0" .doubleQuoted,
    .key, .scalar "default_dialect" .plain, .value, .scalar "simple" .plain,
    .key, .scalar "vars" .plain, .value, .blockMapping,
    .key, .scalar "environment" .plain, .value, .scalar "development" .plain, .blockEnd, .blockEnd]

/-- The state at the beginning of a line of an outermost block mapping. -/
def atLine (tokens : List Token) (cursor : Cursor) (keyAllowed : Bool) : Scanner :=
  ⟨cursor, tokens, [0], [none], keyAllowed⟩

lemma run?_vars (tokens : List Token) :
    Scanner.run? (fuel + 6) (atLine tokens (settingsAt index 25 line 0) true) =
      some ⟨settingsAt index 58 (line + 2) 0,
        .blockEnd :: .blockEnd :: .scalar "development" .plain :: .value ::
          .scalar "environment" .plain :: .key :: .blockMapping :: .value ::
          .scalar "vars" .plain :: .key :: tokens, [], [none], false⟩ := by
  have hvars : Scanner.run? (fuel + 6) (atLine tokens (settingsAt index 25 line 0) true) =
      Scanner.run? (fuel + 4)
        (atLine (.value :: .scalar "vars" .plain :: .key :: tokens) (settingsAt index 30 line 5)
          false) :=
    @Scanner.run?_key (settingsAt index 25 line 0) "vars".toList (settingsText.drop 30) _ _
      rfl rfl (Int.natCast_nonneg _) ⟨'v', _, rfl, rfl⟩ rfl rfl (by decide) rfl
  rw [hvars]
  generalize Token.value :: .scalar "vars" .plain :: .key :: tokens = tokens
  have henvironment : Scanner.run? (fuel + 4) (atLine tokens (settingsAt index 30 line 5) false) =
      Scanner.run? (fuel + 2)
        ⟨settingsAt index 45 (line + 1) 14, .value :: .scalar "environment" .plain :: .key ::
          .blockMapping :: tokens, [2, 0], [none], false⟩ :=
    @Scanner.run?_key (settingsAt index 33 (line + 1) 2) "environment".toList
      (settingsText.drop 45) _ _ rfl rfl (Int.natCast_nonneg _) ⟨'e', _, rfl, rfl⟩ rfl rfl
      (by decide) rfl
  rw [henvironment]
  generalize Token.value :: .scalar "environment" .plain :: .key :: .blockMapping :: tokens = tokens
  have hdeep : (2 : ℤ) ≤ 15 := by decide
  have hdevelopment : Scanner.run? (fuel + 2)
      ⟨settingsAt index 45 (line + 1) 14, tokens, [2, 0], [none], false⟩ =
      Scanner.run? (fuel + 1) ⟨settingsAt index 58 (line + 2) 0,
        .scalar "development" .plain :: tokens, [2, 0], [none], true⟩ :=
    @Scanner.run?_plain (settingsAt index 46 (line + 1) 15) _ _ "development".toList _ _ _ _
      rfl rfl hdeep (by simp [settingsAt]) rfl rfl rfl
  rw [hdevelopment]
  rfl

lemma run?_settings (tokens : List Token) {start : Cursor} {keyAllowed : Bool}
    (hplace : start.toToken false (start.rest.length + 1) keyAllowed =
      (settingsAt index 0 line 0, true)) :
    Scanner.run? (fuel + 9) (atLine tokens start keyAllowed) =
      Scanner.run? (fuel + 6) (atLine (.scalar "simple" .plain :: .value ::
        .scalar "default_dialect" .plain :: .key :: tokens) (settingsAt index 25 (line + 2) 0)
        true) := by
  have hkey : Scanner.run? (fuel + 9) (atLine tokens start keyAllowed) =
      Scanner.run? (fuel + 7) (atLine (.value :: .scalar "default_dialect" .plain :: .key :: tokens)
        (settingsAt index 16 line 16) false) :=
    @Scanner.run?_key (settingsAt index 0 line 0) "default_dialect".toList
      (settingsText.drop 16) _ _ rfl hplace (Int.natCast_nonneg _) ⟨'d', _, rfl, rfl⟩ rfl rfl
      (by decide) rfl
  rw [hkey]
  generalize Token.value :: .scalar "default_dialect" .plain :: .key :: tokens = tokens
  exact @Scanner.run?_plain (settingsAt index 17 line 17) _ _ "simple".toList _ _ _ _
    rfl rfl (Int.natCast_nonneg _) (by simp [settingsAt]) rfl rfl rfl

def betweenText : List Char := '\n' :: '\n' :: (remark ++ '\n' :: settingsText)

lemma toToken_between :
    Cursor.toToken false (betweenText.length + 1) false ⟨betweenText, index, line, 16⟩ =
      (settingsAt (index + 79) 0 (line + 3) 0, true) := by
  obtain ⟨more, hmore⟩ : ∃ more, betweenText.length + 1 = more + 4 :=
    ⟨remark.length + settingsText.length, by simp [betweenText]; omega⟩
  have hremark : remark.all (!isBreak ·) := rfl
  rw [hmore, Cursor.toToken_newline rfl, Cursor.toToken_newline rfl,
    Cursor.toToken_comment rfl (by simpa using hremark) rfl]
  exact Cursor.toToken_of_startsToken rfl rfl (.inr rfl)

lemma run?_version (later : List Char) (tokens : List Token) {start : Cursor} {keyAllowed : Bool}
    (hplace : start.toToken false (start.rest.length + 1) keyAllowed =
      (⟨"version: \"0.1.0\"".toList ++ later, index, line, 0⟩, true)) :
    Scanner.run? (fuel + 3) (atLine tokens start keyAllowed) =
      Scanner.run? fuel (atLine (.scalar "0.1.0" .doubleQuoted :: .value ::
        .scalar "version" .plain :: .key :: tokens) ⟨later, index + 16, line, 16⟩ false) := by
  have hkey : Scanner.run? (fuel + 3) (atLine tokens start keyAllowed) =
      Scanner.run? (fuel + 1) (atLine (.value :: .scalar "version" .plain :: .key :: tokens)
        ⟨' ' :: ("\"0.1.0\"".toList ++ later), index + 8, line, 8⟩ false) :=
    @Scanner.run?_key ⟨"version: \"0.1.0\"".toList ++ later, index, line, 0⟩ "version".toList
      _ _ _ rfl hplace (Int.natCast_nonneg _) ⟨'v', _, rfl, rfl⟩ rfl rfl (by decide) rfl
  rw [hkey]
  have hread : quoted? '"' ⟨"\"0.1.0\"".toList ++ later, index + 9, line, 9⟩ =
      some ("0.1.0".toList, ⟨later, index + 16, line, 16⟩) := rfl
  exact @Scanner.run?_doubleQuoted ⟨"\"0.1.0\"".toList ++ later, index + 9, line, 9⟩ _ _ _ _ _
    rfl rfl (Int.natCast_nonneg _) (Nat.succ_ne_zero 8) rfl hread

lemma run?_later (tokens : List Token) {start : Cursor} {keyAllowed : Bool}
    (hplace : start.toToken false (start.rest.length + 1) keyAllowed =
      (⟨laterText, index, line, 0⟩, true)) :
    (Scanner.run? (fuel + 12) (atLine tokens start keyAllowed)).map Scanner.tokens =
      some (laterTokens.reverse ++ tokens) := by
  have hsettings := @run?_settings (index + 16 + 79) (line + 3) fuel
    (.scalar "0.1.0" .doubleQuoted :: .value :: .scalar "version" .plain :: .key :: tokens)
    ⟨betweenText, index + 16, line, 16⟩ false toToken_between
  rw [run?_version betweenText tokens hplace, hsettings, run?_vars]
  rfl

variable {name : String}

/-- The tokens of the key of the name, the last one first. -/
def keyTokens : List Token := [.value, .scalar "name" .plain, .key, .blockMapping]

lemma run?_name (value : List Char) (hvalue : endsWord value) :
    Scanner.run? (fuel + 2) (.start (title ++ '\n' :: ("name".toList ++ ':' :: value))) =
      Scanner.run? fuel (atLine keyTokens ⟨value, 37, 1, 5⟩ false) := by
  have htitle : title.all (!isBreak ·) := rfl
  have hplace : (Cursor.start (title ++ '\n' :: ("name".toList ++ ':' :: value))).toToken false
      ((title ++ '\n' :: ("name".toList ++ ':' :: value)).length + 1) true =
      (⟨"name".toList ++ ':' :: value, 32, 1, 0⟩, true) := by
    obtain ⟨more, hmore⟩ : ∃ more,
        (title ++ '\n' :: ("name".toList ++ ':' :: value)).length + 1 = more + 2 :=
      ⟨_, rfl⟩
    rw [hmore, Cursor.toToken_comment rfl (by simpa using htitle) rfl]
    exact Cursor.toToken_of_startsToken rfl rfl (.inr rfl)
  have hword : plainWord? false ("name".toList ++ ':' :: value) = some "name".toList := by
    simp [plainWord?, isGap, isBreak, hvalue]
  have hindent : (-1 : ℤ) ≤ 0 := by decide
  exact @Scanner.run?_key ⟨"name".toList ++ ':' :: value, 32, 1, 0⟩ "name".toList value _ _ rfl
    hplace hindent ⟨'n', _, rfl, rfl⟩ hword rfl (by decide) hvalue

lemma run?_emptyName :
    (Scanner.run? (fuel + 12) (atLine keyTokens ⟨' ' :: '\n' :: laterText, 37, 1, 5⟩ false)).map
      Scanner.tokens = some (laterTokens.reverse ++ keyTokens) := by
  refine @run?_later 39 2 fuel keyTokens ⟨' ' :: '\n' :: laterText, 37, 1, 5⟩ false ?_
  obtain ⟨more, hmore⟩ : ∃ more, (' ' :: '\n' :: laterText).length + 1 = more + 2 := ⟨_, rfl⟩
  rw [hmore, Cursor.toToken_space rfl (by simp), Cursor.toToken_newline rfl]
  exact Cursor.toToken_of_startsToken rfl rfl (.inr rfl)

lemma startsWord_laterText : StartsWord laterText := ⟨'v', _, rfl, rfl⟩

lemma startsToken_of_beginsPlain {c : Char} {rest : List Char} (hbegins : beginsPlain (c :: rest))
    (hbreak : isBreak c = false) : startsToken c := by
  simp only [beginsPlain, Bool.or_eq_true, Bool.and_eq_true, Bool.not_eq_true'] at hbegins
  obtain ⟨hindicator, hgap⟩ | ⟨hword, -⟩ := hbegins
  · have hcomment : c ≠ '#' := by
      rintro rfl
      cases hindicator
    simp [startsToken, hgap, hbreak, hcomment]
  · rw [List.contains_iff_mem] at hword
    fin_cases hword <;> rfl

lemma run?_plainName {value : List Char} (hbegins : beginsPlain value)
    (hgoes : goesPlain false value) :
    (Scanner.run? (fuel + 13)
      (atLine keyTokens ⟨' ' :: (value ++ '\n' :: laterText), 37, 1, 5⟩ false)).map Scanner.tokens =
      some (laterTokens.reverse ++ .scalar (String.ofList value) .plain :: keyTokens) := by
  obtain ⟨c, rest, rfl⟩ : ∃ c rest, value = c :: rest := by
    cases value with
    | nil => cases hbegins
    | cons c rest => exact ⟨c, rest, rfl⟩
  have hstarts := startsToken_of_beginsPlain hbegins (goesPlain_cons hgoes).2.1
  have hplace : Cursor.toToken false ((' ' :: (c :: rest ++ '\n' :: laterText)).length + 1) false
      ⟨' ' :: (c :: rest ++ '\n' :: laterText), 37, 1, 5⟩ =
      (⟨c :: rest ++ '\n' :: laterText, 38, 1, 6⟩, false) := by
    rw [Cursor.toToken_space rfl (by simp)]
    exact Cursor.toToken_of_startsToken rfl hstarts (.inl (by simp [Cursor.skip]))
  have hread := @plain?_of_goesPlain (c :: rest) laterText
    ⟨c :: rest ++ '\n' :: laterText, 38, 1, 6⟩ 1 le_rfl startsWord_laterText hbegins hgoes rfl
    (by simp)
  have hbeginsLine : beginsPlain (c :: (rest ++ '\n' :: laterText)) := by
    simpa only [beginsPlain, endsWord_append_newline] using hbegins
  have hname : Scanner.run? (fuel + 13)
      (atLine keyTokens ⟨' ' :: (c :: rest ++ '\n' :: laterText), 37, 1, 5⟩ false) =
      Scanner.run? (fuel + 12) (atLine (.scalar (String.ofList (c :: rest)) .plain :: keyTokens)
        ⟨laterText, 38 + (c :: rest).length + 1, 2, 0⟩ true) :=
    @Scanner.run?_plain ⟨c :: rest ++ '\n' :: laterText, 38, 1, 6⟩ _ _ _ c _ _ _ rfl hplace
      (Int.natCast_nonneg _) (by simp) rfl hbeginsLine hread
  rw [hname]
  exact run?_later _ (Cursor.toToken_of_startsToken rfl rfl (.inr rfl))

lemma all_isAllowed_of_goesPlain {value : List Char} {afterBlank : Bool}
    (h : goesPlain afterBlank value) : value.all isAllowed := by
  induction value generalizing afterBlank with
  | nil => rfl
  | cons c rest ih =>
    obtain ⟨hallowed, -, -, -, hrest⟩ := goesPlain_cons h
    rw [List.all_cons, hallowed, ih hrest]
    rfl

/-- The value of a name, which is missing when the name is empty. -/
def valueTokens (name : String) : List Token :=
  if name = "" then [] else [.scalar name .plain]

lemma all_isAllowed_config : (config name).toList.all isAllowed = name.toList.all isAllowed := by
  have htitle : title.all isAllowed := rfl
  have hkey : "name".toList.all isAllowed := rfl
  have hcolon : isAllowed ':' := rfl
  have hspace : isAllowed ' ' := rfl
  have hnewline : isAllowed '\n' := rfl
  have hlater : laterText.all isAllowed := by cbv
  simp only [toList_config, List.all_append, List.all_cons, htitle, hlater, hkey, hcolon, hspace,
    hnewline, Bool.true_and, Bool.and_true]

theorem tokens?_config (hplain : isPlainLine name.toList) :
    tokens? (config name).toList =
      some (keyTokens.reverse ++ (valueTokens name ++ laterTokens)) := by
  obtain ⟨fuel, hfuel⟩ : ∃ fuel, (config name).toList.length + 1 = fuel + 15 := by
    have hlong : 14 ≤ title.length := by decide
    refine ⟨(config name).toList.length - 14, ?_⟩
    simp only [toList_config, List.length_append]
    omega
  simp only [isPlainLine, Bool.or_eq_true, Bool.and_eq_true, List.isEmpty_iff] at hplain
  have hall : (config name).toList.all isAllowed := by
    rw [all_isAllowed_config]
    obtain hempty | ⟨-, hgoes⟩ := hplain
    · simp [hempty]
    · exact all_isAllowed_of_goesPlain hgoes
  have hrun : (Scanner.run? (fuel + 15) (.start (config name).toList)).map Scanner.tokens =
      some (laterTokens.reverse ++ ((valueTokens name).reverse ++ keyTokens)) := by
    rw [toList_config, run?_name _ rfl]
    obtain hempty | ⟨hbegins, hgoes⟩ := hplain
    · obtain rfl : name = "" := String.toList_eq_nil_iff.mp hempty
      exact run?_emptyName
    · have hne : name ≠ "" := by
        rintro rfl
        cases hbegins
      rw [valueTokens, if_neg hne, run?_plainName hbegins hgoes, String.ofList_toList]
      rfl
  obtain ⟨last, hlast, htokens⟩ := Option.map_eq_some_iff.mp hrun
  rw [tokens?, if_pos hall, hfuel, hlast, Option.map_some, htokens]
  simp

def projectOf (name : String) : ProjectConfig :=
  ⟨name, "0.1.0", .simple, Dictionary.ofList [("environment", .string "development")]⟩

def configNode (name : String) : Node :=
  let word (text : String) : Node := .scalar none .plain text
  .mapping none [(word "name", word name), (word "version", .scalar none .doubleQuoted "0.1.0"),
    (word "default_dialect", word "simple"),
    (word "vars", .mapping none [(word "environment", word "development")])]

lemma ofTokens?_config :
    Document.ofTokens? (keyTokens.reverse ++ (valueTokens name ++ laterTokens)) =
      some ⟨configNode name, []⟩ := by
  by_cases hempty : name = ""
  · subst hempty
    rfl
  · rw [valueTokens, if_neg hempty]
    rfl

/-- A configuration with a plain line as its name is read as a project of the name. -/
theorem decodeText_config (hplain : isPlainLine name.toList) :
    Project.decodeText ProjectConfig.members.shape ProjectConfig.decode (config name) =
      .ok (projectOf name) := by
  have hread : Yaml.read? ProjectConfig.members.shape (config name) =
      Document.read? ⟨configNode name, []⟩ ProjectConfig.members.shape := by
    rw [Yaml.read?, tokens?_config hplain, Option.bind_some, ofTokens?_config, Option.bind_some]
  rw [Project.decodeText, hread]
  rfl

lemma closes_laterText : Scanner.Closes laterText where
  starts := startsWord_laterText
  backslash := by
    have hall : laterText.all (· != '\\') := by cbv
    exact fun hmem => by simpa using List.all_eq_true.mp hall _ hmem
  apostrophe := by
    have hall : laterText.all (· != '\'') := by cbv
    exact fun hmem => by simpa using List.all_eq_true.mp hall _ hmem
  plain := by
    intro indent cursor after text broken hrest hcolumn hread
    have hmark : cursor.atDocumentMark = false := by
      rw [Cursor.atDocumentMark, Scanner.atMark_eq_false hrest (by decide),
        Scanner.atMark_eq_false hrest (by decide)]
      rfl
    have hcomment : cursor.sees '#' = false := by
      rw [Cursor.sees, hrest]
      rfl
    have hword : plainWord? false cursor.rest = some "version".toList := by
      rw [hrest]
      rfl
    have hsplit : cursor.rest = "version".toList ++ ':' :: laterText.drop 8 := by
      rw [hrest]
      rfl
    rw [plain?_of_colon hword (by decide) hmark hcomment hsplit] at hread
    cases hread
    rfl

/-- The first content behind the key of the name is a scalar of the name itself only if that is a
plain line. -/
lemma leads_of_tokens? {tokens : List Token} (h : tokens? (config name).toList = some tokens) :
    ∃ later, tokens = keyTokens.reverse ++ later ∧
      ∀ text style, (later.filter (!·.isProperty)).head? = some (.scalar text style) →
        text = name → isPlainLine name.toList := by
  unfold tokens? at h
  split at h
  · rename_i hallowed
    rw [all_isAllowed_config] at hallowed
    obtain ⟨last, hrun, rfl⟩ := Option.map_eq_some_iff.mp h
    obtain ⟨fuel, hfuel⟩ : ∃ fuel, (config name).toList.length + 1 = fuel + 2 := by
      rw [toList_config]
      exact ⟨_, rfl⟩
    rw [hfuel, toList_config, run?_name _ rfl] at hrun
    generalize hstart : atLine keyTokens ⟨' ' :: (name.toList ++ '\n' :: laterText), 37, 1, 5⟩
      false = start at hrun
    have hplace : Reaches laterText name.toList
        (start.cursor.toToken false (start.cursor.rest.length + 1) start.keyAllowed).1 := by
      subst hstart
      simp only [atLine]
      rw [Cursor.toToken_space rfl (by simp)]
      exact Reaches.toToken startsWord_laterText (.inl ⟨name.toList, List.suffix_refl _, rfl⟩)
    have hfollows : Scanner.Follows (Scanner.PlainOnly name.toList) False keyTokens start := by
      subst hstart
      exact ⟨⟨[], rfl, by simp [firstContent?], False.elim⟩, by simp [atLine]⟩
    have hline : start.indents = [0] ∧ start.keys.length = 1 := by
      subst hstart
      exact ⟨rfl, rfl⟩
    obtain ⟨⟨later, hlater, hplain, -⟩, -⟩ :=
      Scanner.follows_of_run? closes_laterText hallowed hplace hline.1 hline.2 hfollows hrun
    refine ⟨later.reverse, by rw [hlater, List.reverse_append], fun text style hfirst htext => ?_⟩
    rw [← firstContent?_reverse, List.reverse_reverse] at hfirst
    exact hplain text style hfirst (congrArg String.toList htext)
  · cases h

/-- A configuration that is read as a project of its name has a plain line as the name. -/
theorem isPlainLine_of_decodeText {project : ProjectConfig}
    (h : Project.decodeText ProjectConfig.members.shape ProjectConfig.decode (config name) =
      .ok project) (hname : project.name = name) : isPlainLine name.toList := by
  unfold Project.decodeText at h
  split at h
  · cases h
  · rename_i datum hread
    split at h
    · rename_i value hdecode
      cases h
      obtain ⟨document, htokens, hdatum⟩ := Option.bind_eq_some_iff.mp hread
      obtain ⟨tokens, htokens, hdocument⟩ := Option.bind_eq_some_iff.mp htokens
      obtain ⟨later, rfl, hlater⟩ := leads_of_tokens? htokens
      obtain ⟨node, others, hroot, hstarts⟩ := Document.root_of_tokens hdocument
      obtain ⟨text, rest, rfl, hfirst⟩ := exists_of_read? rfl hstarts hroot hdatum
      obtain rfl : text = name := (ProjectConfig.name_of_decode hdecode).symm.trans hname
      obtain rfl | ⟨style, hstyle⟩ := hfirst
      · rfl
      · exact hlater _ style hstyle rfl
    · cases h

end Scaffold

end RecordMapping

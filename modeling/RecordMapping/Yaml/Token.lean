import RecordMapping.Yaml.Scalar

/-!
# Tokens of a YAML text

Indentation becomes tokens: a collection in block style starts where a line is indented more than
the one around it and ends where a line is indented less. Whether a token starts a mapping shows
only when a colon follows it, so the scanner remembers for every level of flow collections where a
simple key may have begun, and puts the missing tokens there.
-/

namespace RecordMapping

namespace Yaml

/-- The text of a tag. Escapes may write octets that are no character. -/
abbrev TagText : Type := List (Option Char)

inductive Token where
  | version (major minor : Nat)
  | tagPrefix (handle : String) (start : TagText)
  | documentStart
  | documentEnd
  | blockSequence
  | blockMapping
  | blockEnd
  | flowSequence
  | flowSequenceEnd
  | flowMapping
  | flowMappingEnd
  | entry
  | comma
  | key
  | value
  | alias (name : String)
  | anchor (name : String)
  | tag (handle : String) (suffix : TagText)
  | scalar (text : String) (style : ScalarStyle)
  deriving DecidableEq

/-- Where a simple key may have begun: how many tokens come before it and its place. A required one
begins a line of its block and has to turn out to be a key. -/
structure SimpleKey where
  before : Nat
  index : Nat
  line : Nat
  column : Nat
  required : Bool

/-- The state between two tokens: the tokens so far, the last one first, the indentations of open
blocks and the possible simple keys of all levels, innermost first. -/
structure Scanner where
  cursor : Cursor
  tokens : List Token
  indents : List Int
  keys : List (Option SimpleKey)
  keyAllowed : Bool

namespace Scanner

def start (text : List Char) : Scanner := ⟨.start text, [], [], [none], true⟩

def inFlow (scanner : Scanner) : Bool := 1 < scanner.keys.length

def indent (scanner : Scanner) : Int := scanner.indents.headD (-1)

/-- The column from which lines belong to what is inside the innermost open block. -/
def innerColumn (scanner : Scanner) : Nat := (scanner.indent + 1).toNat

def emit (token : Token) (scanner : Scanner) : Scanner :=
  { scanner with tokens := token :: scanner.tokens }

/-- The state with a token put after the first so many ones. -/
def insert (before : Nat) (token : Token) (scanner : Scanner) : Scanner :=
  let later := scanner.tokens.length - before
  { scanner with
    tokens := scanner.tokens.take later ++ token :: scanner.tokens.drop later }

def skip (count : Nat) (scanner : Scanner) : Scanner :=
  { scanner with cursor := scanner.cursor.skip count }

def allowKey (allowed : Bool) (scanner : Scanner) : Scanner :=
  { scanner with keyAllowed := allowed }

/-- How many characters a simple key may be long. -/
def keyLimit : Nat := 1024

/-- Gives up a possible simple key that is on an earlier line or too far back; it must not be a
required one. -/
def expireKey? (cursor : Cursor) : Option SimpleKey → Option (Option SimpleKey)
  | none => some none
  | some key =>
    if key.line < cursor.line ∨ key.index + keyLimit < cursor.index then
      (if key.required then none else some none)
    else some (some key)

def expireKeys? (scanner : Scanner) : Option Scanner :=
  (scanner.keys.mapM (expireKey? scanner.cursor)).map fun keys => { scanner with keys := keys }

/-- The state without the possible simple key of the innermost level, which must not be a required
one. -/
def dropKey? (scanner : Scanner) : Option Scanner :=
  match scanner.keys with
  | some key :: outer => if key.required then none else some { scanner with keys := none :: outer }
  | _ => some scanner

/-- The state with a possible simple key at this place, if one is allowed here. -/
def markKey? (scanner : Scanner) : Option Scanner :=
  if scanner.keyAllowed then
    scanner.dropKey?.map fun scanner =>
      let cursor := scanner.cursor
      let required := !scanner.inFlow && scanner.indent == cursor.column
      let key : SimpleKey :=
        ⟨scanner.tokens.length, cursor.index, cursor.line, cursor.column, required⟩
      { scanner with keys := some key :: scanner.keys.tail }
  else some scanner

/-- Opens a block at a column, with its token after the first so many ones. -/
def openBlock (column before : Nat) (token : Token) (scanner : Scanner) : Scanner :=
  if !scanner.inFlow && scanner.indent < column then
    { scanner.insert before token with indents := (column : Int) :: scanner.indents }
  else scanner

/-- The open indentations up to a column, with the tokens so far and an end for each other one. -/
def closeIndents (column : Int) : List Int → List Token → List Int × List Token
  | [], tokens => ([], tokens)
  | indent :: outer, tokens =>
    if column < indent then closeIndents column outer (.blockEnd :: tokens)
    else (indent :: outer, tokens)

/-- Closes the blocks that are indented more than a column. -/
def closeBlocks (column : Int) (scanner : Scanner) : Scanner :=
  if scanner.inFlow then scanner
  else
    let (indents, tokens) := closeIndents column scanner.indents scanner.tokens
    { scanner with indents := indents, tokens := tokens }

/-- A mark between documents, or the end of the text, closes all blocks. -/
def closeAll? (scanner : Scanner) : Option Scanner :=
  (scanner.closeBlocks (-1)).dropKey?.map (allowKey false)

def documentMark? (token : Token) (scanner : Scanner) : Option Scanner :=
  scanner.closeAll?.map fun scanner => (scanner.skip 3).emit token

def openFlow? (token : Token) (scanner : Scanner) : Option Scanner :=
  scanner.markKey?.map fun scanner =>
    (({ scanner with keys := none :: scanner.keys }.allowKey true).skip 1).emit token

def closeFlow? (token : Token) (scanner : Scanner) : Option Scanner :=
  scanner.dropKey?.map fun scanner =>
    let keys := if scanner.inFlow then scanner.keys.tail else scanner.keys
    (({ scanner with keys := keys }.allowKey false).skip 1).emit token

/-- A comma between the entries of a flow collection. -/
def comma? (scanner : Scanner) : Option Scanner :=
  scanner.dropKey?.map fun scanner => ((scanner.allowKey true).skip 1).emit .comma

/-- An indicator that may open a block where simple keys are allowed. -/
def blockIndicator? (opening token : Token) (keyAfter : Bool) (scanner : Scanner) :
    Option Scanner :=
  if !scanner.inFlow && !scanner.keyAllowed then none
  else
    let opened := scanner.openBlock scanner.cursor.column scanner.tokens.length opening
    opened.dropKey?.map fun scanner => ((scanner.allowKey keyAfter).skip 1).emit token

def entry? (scanner : Scanner) : Option Scanner :=
  scanner.blockIndicator? .blockSequence .entry true

def key? (scanner : Scanner) : Option Scanner :=
  scanner.blockIndicator? .blockMapping .key !scanner.inFlow

/-- A colon before a value: what came before it may turn out to be a simple key. -/
def value? (scanner : Scanner) : Option Scanner :=
  match scanner.keys with
  | some key :: outer =>
    let opened := (scanner.insert key.before .key).openBlock key.column key.before .blockMapping
    some ((({ opened with keys := none :: outer }.allowKey false).skip 1).emit .value)
  | _ =>
    if !scanner.inFlow && !scanner.keyAllowed then none
    else
      let opened :=
        scanner.openBlock scanner.cursor.column scanner.tokens.length .blockMapping
      some (((opened.allowKey !scanner.inFlow).skip 1).emit .value)

def endsAnchor : List Char → Bool
  | [] => true
  | c :: _ =>
    isGap c || isBreak c || ['?', ':', ',', ']', '}', '%', '@', (Char.ofNat 96)].contains c

def named? (token : String → Token) (scanner : Scanner) : Option Scanner :=
  scanner.markKey?.bind fun scanner =>
    let name := (scanner.cursor.rest.drop 1).takeWhile isNameChar
    let after := scanner.skip (name.length + 1)
    if name.isEmpty || !endsAnchor after.cursor.rest then none
    else some ((after.allowKey false).emit (token (String.ofList name)))

/-- Characters of tags; commas and brackets only stand between angle brackets. -/
def isTagChar (inBrackets : Bool) (c : Char) : Bool :=
  isNameChar c ||
    [';', '/', '?', ':', '@', '&', '=', '+', '$', '.', '%', '!', '~', '*', '\'', '(',
      ')'].contains c ||
    (inBrackets && [',', '[', ']'].contains c)

/-- How many octets a character takes whose first one is given. -/
def octetsAfter? (first : Nat) : Option Nat :=
  if first < 0x80 then some 0
  else if first / 0x20 = 0x6 then some 1
  else if first / 0x10 = 0xE then some 2
  else if first / 0x8 = 0x1E then some 3
  else none

/-- The character of octets, given the first one and the value of the others, if they are the
shortest ones that write it. -/
def ofOctets? (first later rest : Nat) : Option Char :=
  match later with
  | 0 => charOf? first
  | 1 => if first < 0xC2 then none else charOf? ((first - 0xC0) * 0x40 + rest)
  | 2 =>
    let code := (first - 0xE0) * 0x1000 + rest
    if code < 0x800 then none else charOf? code
  | _ =>
    let code := (first - 0xF0) * 0x40000 + rest
    if code < 0x10000 then none else charOf? code

/-- The octet that two hexadecimal digits after a percent sign write. -/
def octet? : List Char → Option (Nat × List Char)
  | '%' :: a :: b :: rest => do return ((← hexDigit? a) * 16 + (← hexDigit? b), rest)
  | _ => none

/-- The value of so many later octets of a character. -/
def laterOctets? : Nat → Nat → List Char → Option (Nat × List Char)
  | 0, value, text => some (value, text)
  | count + 1, value, text => do
    let (octet, text) ← octet? text
    if octet / 0x40 = 2 then laterOctets? count (value * 0x40 + octet % 0x40) text else none

/-- The text of a tag with its escapes replaced. Every character takes at least one place. -/
def unescape? : Nat → List Char → Option TagText
  | 0, _ => some []
  | _, [] => some []
  | fuel + 1, '%' :: rest => do
    let (first, text) ← octet? ('%' :: rest)
    let later ← octetsAfter? first
    let (value, text) ← laterOctets? later 0 text
    return ofOctets? first later value :: (← unescape? fuel text)
  | fuel + 1, c :: rest => (unescape? fuel rest).map (some c :: ·)

def tagText? (written : List Char) : Option TagText := unescape? written.length written

/-- The tag in a text after its exclamation mark: handle, suffix and length. -/
def tagParts? (text : List Char) : Option (String × TagText × Nat) :=
  match text with
  | '<' :: rest =>
    let address := rest.takeWhile (isTagChar true)
    if address.isEmpty || rest[address.length]? != some '>' then none
    else (tagText? address).map fun suffix => ("", suffix, address.length + 2)
  | _ =>
    let name := text.takeWhile isNameChar
    match text.drop name.length with
    | '!' :: rest =>
      let written := rest.takeWhile (isTagChar false)
      if written.isEmpty then none
      else (tagText? written).map fun suffix =>
        (String.ofList ('!' :: name ++ ['!']), suffix, name.length + 1 + written.length)
    | _ =>
      let written := text.takeWhile (isTagChar false)
      if written.isEmpty then some ("", [some '!'], 0)
      else (tagText? written).map fun suffix => ("!", suffix, written.length)

def tag? (scanner : Scanner) : Option Scanner :=
  scanner.markKey?.bind fun scanner =>
    match tagParts? (scanner.cursor.rest.drop 1) with
    | none => none
    | some (handle, suffix, length) =>
      let after := scanner.skip (length + 1)
      if endsWord after.cursor.rest || (scanner.inFlow && after.cursor.sees ',') then
        some ((after.allowKey false).emit (.tag handle suffix))
      else none

/-- The number at the beginning of a text, of at most nine digits. -/
def versionNumber? (text : List Char) : Option (Nat × List Char) :=
  let digits := text.takeWhile Char.isDigit
  if digits.isEmpty || 9 < digits.length then none
  else some (Nat.ofDigitChars 10 digits 0, text.drop digits.length)

/-- The token of a directive, given its name and its content, and the text after it. -/
def directiveToken? (name : String) (content : List Char) : Option (Token × List Char) :=
  match name with
  | "YAML" => do
    let (major, rest) ← versionNumber? content
    match rest with
    | '.' :: rest => (versionNumber? rest).map fun (minor, rest) => (.version major minor, rest)
    | _ => none
  | "TAG" =>
    match content with
    | '!' :: rest =>
      let name := rest.takeWhile isNameChar
      let after := rest.drop name.length
      let closed := after.head? == some '!'
      let handle := '!' :: name ++ (if closed then ['!'] else [])
      let after := if closed then after.drop 1 else after
      let start := (after.dropWhile isGap).takeWhile (isTagChar true)
      let rest := (after.dropWhile isGap).drop start.length
      if (!closed && !name.isEmpty) || !after.head?.any isGap || start.isEmpty ||
          !endsWord rest then
        none
      else (tagText? start).map fun start => (.tagPrefix (String.ofList handle) start, rest)
    | _ => none
  | _ => none

def directive? (scanner : Scanner) : Option Scanner :=
  scanner.closeAll?.bind fun scanner =>
    let line := (scanner.cursor.rest.drop 1).takeWhile (!isBreak ·)
    let name := line.takeWhile isNameChar
    let content := line.drop name.length
    if name.isEmpty || !endsWord content then none
    else match directiveToken? (String.ofList name) (content.dropWhile isGap) with
      | none => none
      | some (token, rest) =>
        let rest := rest.dropWhile isGap
        if rest.isEmpty || rest.head? == some '#' then
          some ((scanner.skip (line.length + 1)).emit token)
        else none

def block? (folded : Bool) (scanner : Scanner) : Option Scanner :=
  scanner.dropKey?.bind fun scanner =>
    (Yaml.block? folded scanner.indent scanner.cursor).map fun (text, cursor) =>
      ({ scanner with cursor := cursor }.allowKey true).emit
        (.scalar (String.ofList text) (if folded then .folded else .literal))

def quoted? (quote : Char) (scanner : Scanner) : Option Scanner :=
  scanner.markKey?.bind fun scanner =>
    (Yaml.quoted? quote scanner.cursor).map fun (text, cursor) =>
      ({ scanner with cursor := cursor }.allowKey false).emit
        (.scalar (String.ofList text) (if quote == '"' then .doubleQuoted else .singleQuoted))

def plain? (scanner : Scanner) : Option Scanner :=
  scanner.markKey?.bind fun scanner =>
    let read := Yaml.plain? scanner.inFlow scanner.innerColumn scanner.cursor
    read.map fun (text, cursor, broken) =>
      ({ scanner with cursor := cursor }.allowKey broken).emit (.scalar (String.ofList text) .plain)

/-- Characters that start no plain scalar, unless a word goes on after some of them. -/
def isIndicator (c : Char) : Bool :=
  ['-', '?', ':', ',', '[', ']', '{', '}', '#', '&', '*', '!', '|', '>', '\'', '"', '%', '@',
    (Char.ofNat 96)].contains c

/-- Whether a plain scalar starts with a character before a text. -/
def startsPlain (inFlow : Bool) (c : Char) (rest : List Char) : Bool :=
  (!isIndicator c && !isGap c) || (c == '-' && !rest.head?.any isGap) ||
    (!inFlow && (c == '?' || c == ':') && !endsWord rest)

/-- The next token, which starts at the cursor with a character before a text. -/
def fetch? (c : Char) (rest : List Char) (scanner : Scanner) : Option Scanner :=
  let cursor := scanner.cursor
  if cursor.column == 0 && c == '%' then scanner.directive?
  else if cursor.atMark '-' then scanner.documentMark? .documentStart
  else if cursor.atMark '.' then scanner.documentMark? .documentEnd
  else if c == '[' then scanner.openFlow? .flowSequence
  else if c == '{' then scanner.openFlow? .flowMapping
  else if c == ']' then scanner.closeFlow? .flowSequenceEnd
  else if c == '}' then scanner.closeFlow? .flowMappingEnd
  else if c == ',' then scanner.comma?
  else if c == '-' && endsWord rest then scanner.entry?
  else if c == '?' && (scanner.inFlow || endsWord rest) then scanner.key?
  else if c == ':' && (scanner.inFlow || endsWord rest) then scanner.value?
  else if c == '*' then scanner.named? .alias
  else if c == '&' then scanner.named? .anchor
  else if c == '!' then scanner.tag?
  else if c == '|' && !scanner.inFlow then scanner.block? false
  else if c == '>' && !scanner.inFlow then scanner.block? true
  else if c == '\'' || c == '"' then scanner.quoted? c
  else if startsPlain scanner.inFlow c rest then scanner.plain?
  else none

/-- The state at the end of the text. -/
def finish? (scanner : Scanner) : Option Scanner := scanner.closeAll?

/-- Scans the rest of the text. Every token takes at least one character. -/
def run? : Nat → Scanner → Option Scanner
  | 0, _ => none
  | fuel + 1, scanner =>
    let (cursor, keyAllowed) := scanner.cursor.toToken scanner.inFlow
      (scanner.cursor.rest.length + 1) scanner.keyAllowed
    match { scanner with cursor := cursor, keyAllowed := keyAllowed }.expireKeys? with
    | none => none
    | some scanner =>
      let scanner := scanner.closeBlocks cursor.column
      match cursor.rest with
      | [] => scanner.finish?
      | c :: rest =>
        match scanner.fetch? c rest with
        | none => none
        | some scanner => run? fuel scanner

end Scanner

def tokens? (text : List Char) : Option (List Token) :=
  if text.all isAllowed then
    (Scanner.run? (text.length + 1) (.start text)).map fun scanner => scanner.tokens.reverse
  else none

end Yaml

end RecordMapping

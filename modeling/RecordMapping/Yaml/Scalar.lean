import RecordMapping.Yaml.Cursor

/-!
# Scalars of a YAML text

A scalar is plain, quoted or a block. Inside plain and quoted scalars line breaks fold: a single one
becomes a space, and of several the first one is dropped. Block scalars keep their lines or fold
them, and tell how the line breaks at their end count.
-/

namespace RecordMapping

namespace Yaml

inductive ScalarStyle where
  | plain
  | singleQuoted
  | doubleQuoted
  | literal
  | folded
  deriving DecidableEq

/-- The blanks and line breaks between two words: the blanks before the first break, the breaks, and
the place after them. -/
structure Gap where
  blanks : List Char
  breaks : List Char
  cursor : Cursor

namespace Gap

/-- The text that a gap stands for between two words. -/
def fold (gap : Gap) : List Char :=
  match gap.breaks with
  | [] => gap.blanks
  | ['\n'] => [' ']
  | '\n' :: more => more
  | breaks => breaks

/-- The gap at a place; after the first line break tabs are refused before a column. -/
def take? (tabLimit : Nat) : Nat → Gap → Option Gap
  | 0, gap => some gap
  | fuel + 1, gap =>
    match gap.cursor.rest with
    | [] => some gap
    | c :: _ =>
      if isGap c then
        if gap.breaks.isEmpty then
          take? tabLimit fuel
            { gap with blanks := gap.blanks ++ [c], cursor := gap.cursor.skip 1 }
        else if c == '\t' && gap.cursor.column < tabLimit then none
        else take? tabLimit fuel { gap with cursor := gap.cursor.skip 1 }
      else match takeBreak? gap.cursor.rest with
        | some (lineBreak, _) =>
          take? tabLimit fuel
            { gap with breaks := gap.breaks ++ [lineBreak], cursor := gap.cursor.skipBreak }
        | none => some gap

end Gap

def gapAt? (tabLimit : Nat) (cursor : Cursor) : Option Gap :=
  Gap.take? tabLimit cursor.rest.length ⟨[], [], cursor⟩

/-- Characters that end plain scalars inside flow collections. -/
def isFlowMark (c : Char) : Bool := [',', '[', ']', '{', '}'].contains c

/-- One word of a plain scalar. A colon before a blank ends it, and so do flow marks inside flow
collections, where a colon right before one of them is refused. -/
def plainWord? (inFlow : Bool) : List Char → Option (List Char)
  | [] => some []
  | c :: rest =>
    if isGap c || isBreak c then some []
    else if inFlow && c == ':' && rest.head?.any (fun d => d == '?' || isFlowMark d) then none
    else if c == ':' && endsWord rest then some []
    else if inFlow && isFlowMark c then some []
    else (plainWord? inFlow rest).map (c :: ·)

/-- A plain scalar from a place on: its text, the place after it and whether lines were broken
there. Lines have to be indented at least to a column. -/
def plainFrom? (inFlow : Bool) (indent : Nat) :
    Nat → List Char → Gap → Option (List Char × Cursor × Bool)
  | 0, text, gap => some (text, gap.cursor, !gap.breaks.isEmpty)
  | fuel + 1, text, gap =>
    let cursor := gap.cursor
    let ended := some (text, cursor, !gap.breaks.isEmpty)
    if cursor.atDocumentMark || cursor.sees '#' then ended
    else match plainWord? inFlow cursor.rest with
      | none => none
      | some [] => ended
      | some word =>
        let text := text ++ gap.fold ++ word
        let after := cursor.skip word.length
        if !endsWord after.rest || after.rest.isEmpty then some (text, after, false)
        else match gapAt? indent after with
          | none => none
          | some gap =>
            if !inFlow && gap.cursor.column < indent then
              some (text, gap.cursor, !gap.breaks.isEmpty)
            else plainFrom? inFlow indent fuel text gap

def plain? (inFlow : Bool) (indent : Nat) (cursor : Cursor) :
    Option (List Char × Cursor × Bool) :=
  plainFrom? inFlow indent cursor.rest.length [] ⟨[], [], cursor⟩

def hexDigit? (c : Char) : Option Nat :=
  let n := c.toNat
  if c.isDigit then some (n - 48)
  else if 97 ≤ n ∧ n ≤ 102 then some (n - 87)
  else if 65 ≤ n ∧ n ≤ 70 then some (n - 55)
  else none

/-- The character of a code, unless it is no code of a character. -/
def charOf? (code : Nat) : Option Char :=
  if h : code.isValidChar then some (Char.ofNatAux code h) else none

/-- The character that so many hexadecimal digits write. -/
def hexChar? (count : Nat) (text : List Char) : Option Char :=
  if text.length < count then none
  else ((text.take count).foldlM (fun n c => (hexDigit? c).map (n * 16 + ·)) 0).bind charOf?

def shortEscapes : List (Char × Nat) :=
  [('0', 0), ('a', 7), ('b', 8), ('t', 9), ('\t', 9), ('n', 10), ('v', 11), ('f', 12), ('r', 13),
    ('e', 27), (' ', 32), ('"', 34), ('/', 47), ('\\', 92), ('N', 0x85), ('_', 0xA0),
    ('L', 0x2028), ('P', 0x2029)]

/-- How many hexadecimal digits follow a character after a backslash. -/
def longEscapes : List (Char × Nat) := [('x', 2), ('u', 4), ('U', 8)]

/-- The character of an escape, after its backslash, and the length of the escape. -/
def escape? : List Char → Option (Char × Nat)
  | [] => none
  | c :: rest =>
    match shortEscapes.lookup c, longEscapes.lookup c with
    | some code, _ => (charOf? code).map fun d => (d, 1)
    | none, some count => (hexChar? count rest).map fun d => (d, count + 1)
    | none, none => none

/-- One word of a quoted scalar, the place after it and whether an escaped line break ended it. -/
def quotedWord? (quote : Char) : Nat → List Char → Cursor → Option (List Char × Cursor × Bool)
  | 0, word, cursor => some (word, cursor, false)
  | fuel + 1, word, cursor =>
    match cursor.rest with
    | [] => some (word, cursor, false)
    | c :: rest =>
      if isGap c || isBreak c then some (word, cursor, false)
      else if c == '\'' && quote == '\'' && rest.head? == some '\'' then
        quotedWord? quote fuel (word ++ ['\'']) (cursor.skip 2)
      else if c == quote then some (word, cursor, false)
      else if c == '\\' && quote == '"' then
        if rest.head?.any isBreak then some (word, (cursor.skip 1).skipBreak, true)
        else match escape? rest with
          | none => none
          | some (d, length) => quotedWord? quote fuel (word ++ [d]) (cursor.skip (length + 1))
      else quotedWord? quote fuel (word ++ [c]) (cursor.skip 1)

/-- The text that a gap stands for after an escaped line break: all its breaks and no blanks. -/
def foldEscaped (gap : Gap) : List Char := gap.breaks

/-- The blanks after an escaped line break are dropped. -/
def gapAfterEscape? (cursor : Cursor) : Option Gap :=
  gapAt? 0 (cursor.skipWhile isGap)

/-- A quoted scalar after its opening quote. No mark between documents may stand inside. -/
def quotedFrom? (quote : Char) : Nat → List Char → Cursor → Option (List Char × Cursor)
  | 0, _, _ => none
  | fuel + 1, text, cursor =>
    if cursor.atDocumentMark || cursor.rest.isEmpty then none
    else match quotedWord? quote cursor.rest.length [] cursor with
      | none => none
      | some (word, cursor, escaped) =>
        if cursor.sees quote then some (text ++ word, cursor.skip 1)
        else if escaped then
          match gapAfterEscape? cursor with
          | none => none
          | some gap => quotedFrom? quote fuel (text ++ word ++ foldEscaped gap) gap.cursor
        else match gapAt? 0 cursor with
          | none => none
          | some gap => quotedFrom? quote fuel (text ++ word ++ gap.fold) gap.cursor

def quoted? (quote : Char) (cursor : Cursor) : Option (List Char × Cursor) :=
  quotedFrom? quote cursor.rest.length [] (cursor.skip 1)

/-- How the line breaks at the end of a block scalar count. -/
inductive Chomping where
  | strip
  | clip
  | keep
  deriving DecidableEq

def chomping? : Char → Option Chomping
  | '+' => some .keep
  | '-' => some .strip
  | _ => none

/-- The header of a block scalar after its first character: chomping and indentation, in either
order, and the place after them. -/
def blockHeader? (cursor : Cursor) : Option (Chomping × Option Nat × Cursor) :=
  let digit? (cursor : Cursor) : Option (Option Nat × Cursor) :=
    match cursor.peek? with
    | some c =>
      if c == '0' then none
      else if c.isDigit then some (some (c.toNat - 48), cursor.skip 1)
      else some (none, cursor)
    | none => some (none, cursor)
  let sign (cursor : Cursor) : Option Chomping := cursor.peek?.bind chomping?
  match sign cursor with
  | some chomping => (digit? (cursor.skip 1)).map fun (n, cursor) => (chomping, n, cursor)
  | none =>
    match cursor.peek?.filter Char.isDigit, digit? cursor with
    | none, _ => some (.clip, none, cursor)
    | some _, none => none
    | some _, some (n, cursor) =>
      match sign cursor with
      | some chomping => some (chomping, n, cursor.skip 1)
      | none => some (.clip, n, cursor)

/-- The blank lines at a place: their breaks, the place after them and the widest indentation. With
an indentation given, only so many spaces are taken from a line; without one, all of them. -/
def blankLines? (indent : Option Nat) :
    Nat → List Char → Nat → Cursor → Option (List Char × Nat × Cursor)
  | 0, breaks, widest, cursor => some (breaks, widest, cursor)
  | fuel + 1, breaks, widest, cursor =>
    let spaces := (cursor.rest.takeWhile (· == ' ')).length
    let taken := match indent with
      | some n => min spaces (n - cursor.column)
      | none => spaces
    let cursor := cursor.skip taken
    let widest := max widest cursor.column
    let inIndent := match indent with
      | some n => decide (cursor.column < n)
      | none => true
    if inIndent && cursor.sees '\t' then none
    else match takeBreak? cursor.rest with
      | some (lineBreak, _) =>
        blankLines? indent fuel (breaks ++ [lineBreak]) widest cursor.skipBreak
      | none => some (breaks, widest, cursor)

/-- What stands between two lines of a block scalar: the break after the first one and the blank
lines. Folding drops the break, or makes it a space, between lines that do not start with blanks. -/
def betweenLines (folded afterBlank beforeBlank : Bool) (lineBreak blankLines : List Char) :
    List Char :=
  if folded && lineBreak == ['\n'] && !afterBlank && !beforeBlank then
    (if blankLines.isEmpty then [' '] else []) ++ blankLines
  else lineBreak ++ blankLines

/-- The lines of a block scalar: the text so far, whether its last line starts with a blank, the
break after that line and the blank lines after it. -/
def blockLines? (folded : Bool) (indent : Nat) :
    Nat → List Char → Bool → List Char → List Char → Cursor →
    Option (List Char × List Char × List Char × Cursor)
  | 0, text, _, lineBreak, blankLines, cursor => some (text, lineBreak, blankLines, cursor)
  | fuel + 1, text, afterBlank, lineBreak, blankLines, cursor =>
    if cursor.column != indent || cursor.rest.isEmpty then
      some (text, lineBreak, blankLines, cursor)
    else
      let startsBlank := cursor.rest.head?.any isGap
      let between := betweenLines folded afterBlank startsBlank lineBreak blankLines
      let line := cursor.rest.takeWhile (!isBreak ·)
      let cursor := cursor.skip line.length
      let lineBreak := match takeBreak? cursor.rest with
        | some (c, _) => [c]
        | none => []
      let next := cursor.skipBreak
      match blankLines? (some indent) next.rest.length [] 0 next with
      | none => none
      | some (blankLines, _, cursor) =>
        blockLines? folded indent fuel (text ++ between ++ line) startsBlank lineBreak blankLines
          cursor

/-- The block scalar at a place, for an indentation of what contains it. -/
def block? (folded : Bool) (outer : Int) (cursor : Cursor) : Option (List Char × Cursor) := do
  let (chomping, width?, cursor) ← blockHeader? (cursor.skip 1)
  let cursor := cursor.skipWhile isGap
  let cursor := if cursor.sees '#' then cursor.skipWhile (!isBreak ·) else cursor
  if !cursor.rest.isEmpty && !cursor.atBreak then none
  let cursor := cursor.skipBreak
  let given := width?.map fun width => outer.toNat + width
  let (leading, widest, cursor) ← blankLines? given cursor.rest.length [] 0 cursor
  let indent := given.getD (max (max widest (outer + 1).toNat) 1)
  let (text, lineBreak, blankLines, cursor) ←
    blockLines? folded indent cursor.rest.length [] false [] leading cursor
  let tail := match chomping with
    | .strip => []
    | .clip => lineBreak
    | .keep => lineBreak ++ blankLines
  return (text ++ tail, cursor)

end Yaml

end RecordMapping

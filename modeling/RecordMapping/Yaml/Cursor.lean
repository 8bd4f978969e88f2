/-!
# Positions in a YAML text

A cursor is the text still to be read with its place: the index from the beginning, the line and the
column. Blanks are spaces and tabs; five characters break lines, and a carriage return with a line
feed is one break.
-/

namespace RecordMapping

namespace Yaml

def isGap (c : Char) : Bool := c == ' ' || c == '\t'

def isBreak (c : Char) : Bool :=
  c == '\n' || c == '\r' || c.toNat == 0x85 || c.toNat == 0x2028 || c.toNat == 0x2029

/-- The mark of the byte order, which may start a line. -/
def isOrderMark (c : Char) : Bool := c.toNat == 0xFEFF

def isAllowed (c : Char) : Bool :=
  let n := c.toNat
  n == 0x9 || n == 0xA || n == 0xD || (0x20 ≤ n && n ≤ 0x7E) || n == 0x85 ||
    (0xA0 ≤ n && n != 0xFFFE && n != 0xFFFF)

/-- Letters, digits, the underscore and the hyphen, of ASCII. -/
def isNameChar (c : Char) : Bool := c.isAlphanum || c == '_' || c == '-'

/-- Whether a text goes on with a blank or a break, or ends. -/
def endsWord : List Char → Bool
  | [] => true
  | c :: _ => isGap c || isBreak c

/-- The text after its first line break, and the break as it counts in scalars: the separators of
lines and paragraphs stay, all others become line feeds. -/
def takeBreak? : List Char → Option (Char × List Char)
  | '\r' :: '\n' :: rest => some ('\n', rest)
  | c :: rest =>
    if c.toNat == 0x2028 || c.toNat == 0x2029 then some (c, rest)
    else if isBreak c then some ('\n', rest)
    else none
  | [] => none

structure Cursor where
  rest : List Char
  index : Nat
  line : Nat
  column : Nat

namespace Cursor

def start (text : List Char) : Cursor := ⟨text, 0, 0, 0⟩

def peek? (cursor : Cursor) : Option Char := cursor.rest.head?

/-- Whether the next character is a given one. -/
def sees (c : Char) (cursor : Cursor) : Bool := cursor.rest.head? == some c

/-- The place so many characters further on in the line. -/
def skip (count : Nat) (cursor : Cursor) : Cursor :=
  ⟨cursor.rest.drop count, cursor.index + count, cursor.line, cursor.column + count⟩

/-- The place after the characters of the line that pass a test. -/
def skipWhile (test : Char → Bool) (cursor : Cursor) : Cursor :=
  cursor.skip (cursor.rest.takeWhile test).length

def skipBreak (cursor : Cursor) : Cursor :=
  match takeBreak? cursor.rest with
  | some (_, rest) =>
    ⟨rest, cursor.index + (cursor.rest.length - rest.length), cursor.line + 1, 0⟩
  | none => cursor

def atBreak (cursor : Cursor) : Bool := cursor.rest.head?.any isBreak

/-- Whether a mark between documents starts here: three equal characters on their own at the
beginning of a line. -/
def atMark (c : Char) (cursor : Cursor) : Bool :=
  cursor.column == 0 && cursor.rest.take 3 == [c, c, c] && endsWord (cursor.rest.drop 3)

def atDocumentMark (cursor : Cursor) : Bool := cursor.atMark '-' || cursor.atMark '.'

/-- The place of the next token, after blanks, comments and line breaks. Tabs count as blanks where
no simple key can start, and always inside flow collections. The flag tells whether a simple key may
start; outside flow collections a new line allows it. -/
def toToken (inFlow : Bool) : Nat → Bool → Cursor → Cursor × Bool
  | 0, keyAllowed, cursor => (cursor, keyAllowed)
  | fuel + 1, keyAllowed, cursor =>
    let cursor :=
      if cursor.column == 0 && cursor.rest.head?.any isOrderMark then cursor.skip 1 else cursor
    let cursor :=
      cursor.skipWhile fun c => c == ' ' || (c == '\t' && (inFlow || !keyAllowed))
    let cursor := if cursor.sees '#' then cursor.skipWhile (!isBreak ·) else cursor
    if cursor.atBreak then toToken inFlow fuel (keyAllowed || !inFlow) cursor.skipBreak
    else (cursor, keyAllowed)

end Cursor

end Yaml

end RecordMapping

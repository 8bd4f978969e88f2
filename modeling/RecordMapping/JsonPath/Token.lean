import RecordMapping.Text.Blank

/-!
# Tokens of path queries

A query is cut into punctuation, quoted texts, runs of blanks and words, a word being a run of other
characters. Tokens are read up to the first character that starts none; the rest of the query is
then out of reach, which matters only if the grammar asks for more.
-/

namespace RecordMapping

namespace JsonPath

/-- The relations that a filter can ask for between two operands. -/
inductive Relation where
  | equal
  | notEqual
  | less
  | lessEqual
  | greater
  | greaterEqual
  | both
  | either
  deriving DecidableEq

inductive Token where
  | root
  | here
  | dot
  | openBracket
  | closeBracket
  | openParen
  | closeParen
  | star
  | question
  | comma
  | colon
  | blank
  | relation (relation : Relation)
  | quoted (text : List Char)
  | word (text : List Char)
  deriving DecidableEq

/-- Characters that are tokens of their own or start one. -/
def isPunctuation (c : Char) : Bool :=
  ['.', '*', '[', ']', '(', ')', '@', '?', ',', ':', '<', '>', '=', '&', '|', '!'].contains c

/-- Characters that continue a word that starts with a dollar sign. -/
def continuesRoot (c : Char) : Bool := !isPunctuation c && !isBlank c

def continuesWord (c : Char) : Bool := continuesRoot c && c != '$'

/-- The text up to a closing quote. A backslash before the first closing quote makes it part of the
text, once. -/
def quotedText? (quote : Char) (text : List Char) : Option (List Char × List Char) :=
  let body := text.takeWhile (· ≠ quote)
  match text.dropWhile (· ≠ quote) with
  | [] => none
  | _ :: rest =>
    if body.getLast? = some '\\' then
      match rest.dropWhile (· ≠ quote) with
      | [] => none
      | _ :: after => some (body.dropLast ++ quote :: rest.takeWhile (· ≠ quote), after)
    else some (body, rest)

/-- A relation of two characters, the second one given, or else the relation of one. -/
def relationThen? (second : Char) (long : Relation) (short : Option Relation)
    (text : List Char) : Option (Token × List Char) :=
  match text with
  | [] => none
  | c :: rest =>
    if c = second then some (.relation long, rest)
    else short.map fun relation => (.relation relation, text)

/-- The token that a character starts, and what follows it. -/
def tokenFrom? (c : Char) (rest : List Char) : Option (Token × List Char) :=
  if c = '$' then
    let run := rest.takeWhile continuesRoot
    if run.isEmpty then some (.root, rest)
    else some (.word (c :: run), rest.dropWhile continuesRoot)
  else if c = '.' then some (.dot, rest)
  else if c = '*' then some (.star, rest)
  else if c = '[' then some (.openBracket, rest)
  else if c = ']' then some (.closeBracket, rest)
  else if c = '(' then some (.openParen, rest)
  else if c = ')' then some (.closeParen, rest)
  else if c = '@' then some (.here, rest)
  else if c = '?' then some (.question, rest)
  else if c = ',' then some (.comma, rest)
  else if c = ':' then some (.colon, rest)
  else if c = '\'' ∨ c = '"' then
    (quotedText? c rest).map fun (text, after) => (.quoted text, after)
  else if c = '=' then relationThen? '=' .equal none rest
  else if c = '!' then relationThen? '=' .notEqual none rest
  else if c = '<' then relationThen? '=' .lessEqual (some .less) rest
  else if c = '>' then relationThen? '=' .greaterEqual (some .greater) rest
  else if c = '&' then relationThen? '&' .both none rest
  else if c = '|' then relationThen? '|' .either none rest
  else if isBlank c then some (.blank, rest.dropWhile isBlank)
  else some (.word (c :: rest.takeWhile continuesWord), rest.dropWhile continuesWord)

/-- The tokens of a text, at most as many as the first argument. -/
def tokensUpTo : Nat → List Char → List Token
  | 0, _ => []
  | _, [] => []
  | fuel + 1, c :: rest =>
    match tokenFrom? c rest with
    | none => []
    | some (token, after) => token :: tokensUpTo fuel after

/-- The tokens of a text. Each takes at least one character. -/
def tokens (text : List Char) : List Token := tokensUpTo text.length text

end JsonPath

end RecordMapping

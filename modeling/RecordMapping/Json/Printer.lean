import RecordMapping.Json.Basic
import RecordMapping.Text.Pieces

/-!
# The text of a document

Two layouts: compact, without any space, and pretty, with one member or item a line and two spaces
of indentation for each level. Strings escape quotes, backslashes and control characters only.
-/

namespace RecordMapping

/-- The lower-case hexadecimal digit of a number below sixteen. -/
def hexDigit (n : Nat) : Char := Nat.digitChar n

/-- The escaped form of a control character without a short form. -/
def unicodeEscape (c : Char) : List Char :=
  ['\\', 'u', '0', '0', hexDigit (c.toNat / 16), hexDigit (c.toNat % 16)]

def escapeChar (c : Char) : List Char :=
  if c = '"' then ['\\', '"']
  else if c = '\\' then ['\\', '\\']
  else if 0x20 ≤ c.toNat then [c]
  else if c = '\n' then ['\\', 'n']
  else if c = '\r' then ['\\', 'r']
  else if c = '\t' then ['\\', 't']
  else if c.toNat = 8 then ['\\', 'b']
  else if c.toNat = 12 then ['\\', 'f']
  else unicodeEscape c

def quoted (s : String) : List Char := '"' :: (s.toList.flatMap escapeChar ++ ['"'])

namespace Json

mutual

def compact : Json → List Char
  | .null => ['n', 'u', 'l', 'l']
  | .bool true => ['t', 'r', 'u', 'e']
  | .bool false => ['f', 'a', 'l', 's', 'e']
  | .number n => n.text
  | .string s => quoted s
  | .list items => '[' :: (joinPieces [','] (compactItems items) ++ [']'])
  | .object members => '{' :: (joinPieces [','] (compactMembers members) ++ ['}'])
termination_by structural value => value

def compactItems : List Json → List (List Char)
  | [] => []
  | item :: rest => item.compact :: compactItems rest
termination_by structural items => items

/-- The compact texts of the members of an object. -/
def compactMembers : List (String × Json) → List (List Char)
  | [] => []
  | (name, value) :: rest => (quoted name ++ ':' :: value.compact) :: compactMembers rest
termination_by structural members => members

end

/-- A line break followed by the indentation of a level. -/
def newLine (level : Nat) : List Char := '\n' :: List.replicate (2 * level) ' '

/-- The texts of the parts of a container, each on a line of its own between two brackets. -/
def block (level : Nat) (opening closing : Char) (parts : List (List Char)) : List Char :=
  if parts.isEmpty then [opening, closing]
  else
    opening :: (newLine (level + 1) ++ joinPieces (',' :: newLine (level + 1)) parts ++
      newLine level ++ [closing])

mutual

/-- The pretty text of a value that stands on a level. -/
def prettyAt (level : Nat) : Json → List Char
  | .list items => block level '[' ']' (prettyItems (level + 1) items)
  | .object members => block level '{' '}' (prettyMembers (level + 1) members)
  | .null => compact .null
  | .bool b => compact (.bool b)
  | .number n => compact (.number n)
  | .string s => compact (.string s)
termination_by structural value => value

def prettyItems (level : Nat) : List Json → List (List Char)
  | [] => []
  | item :: rest => prettyAt level item :: prettyItems level rest
termination_by structural items => items

/-- The pretty texts of the members of an object. -/
def prettyMembers (level : Nat) : List (String × Json) → List (List Char)
  | [] => []
  | (name, value) :: rest =>
    (quoted name ++ ':' :: ' ' :: prettyAt level value) :: prettyMembers level rest
termination_by structural members => members

end

def pretty (value : Json) : List Char := value.prettyAt 0

def toText (value : Json) : String := String.ofList value.compact

end Json

end RecordMapping

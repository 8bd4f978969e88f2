import RecordMapping.Json.Printer
import RecordMapping.Schema.Cardinality
import RecordMapping.Text.Hidden

/-!
# Faults of definitions

What is wrong with a value that should define something: a type or a value that was not expected, an
unknown variant, a missing or repeated member, a sequence of the wrong length. Each fault has one
wording.
-/

namespace RecordMapping

inductive Found where
  | null
  | boolean (value : Bool)
  | integer (value : Int)
  | float (value : Binary64)
  | notFinite (name : String)
  | text (value : String)
  | sequence
  | mapping
  deriving DecidableEq

inductive DefinitionFault where
  | wrongType (found : Found) (expected : String)
  | wrongValue (found : Found) (expected : String)
  | unknownVariant (name : String) (known : List String)
  | missingField (name : String)
  | duplicateField (name : String)
  | wrongLength (length : Nat) (expected : String)
  | cardinality (value : Int)
  deriving DecidableEq

/-- A character inside the quotes of a message. -/
def shownChar (c : Char) : List Char :=
  if c = '"' then ['\\', '"']
  else if c = '\\' then ['\\', '\\']
  else if c = '\n' then ['\\', 'n']
  else if c = '\r' then ['\\', 'r']
  else if c = '\t' then ['\\', 't']
  else if c.toNat = 0 then ['\\', '0']
  else if isShown c then [c]
  else '\\' :: 'u' :: '{' :: (Nat.toDigits 16 c.toNat ++ ['}'])

def shownText (s : String) : String :=
  String.ofList ('"' :: (s.toList.flatMap shownChar ++ ['"']))

namespace Found

def describe : Found → String
  | .null => "null"
  | .boolean true => "boolean `true`"
  | .boolean false => "boolean `false`"
  | .integer n => "integer `" ++ String.ofList (integerText n) ++ "`"
  | .float x => "floating point `" ++ String.ofList (Number.layout.write x) ++ "`"
  | .notFinite name => "floating point `" ++ name ++ "`"
  | .text s => "string " ++ shownText s
  | .sequence => "sequence"
  | .mapping => "map"

end Found

namespace DefinitionFault

def inBackquotes (name : String) : String := "`" ++ name ++ "`"

def alternatives : List String → String
  | [] => "there are no variants"
  | [a] => "expected " ++ inBackquotes a
  | [a, b] => "expected " ++ inBackquotes a ++ " or " ++ inBackquotes b
  | names =>
    "expected one of " ++ String.intercalate ", " (names.map inBackquotes)

def message : DefinitionFault → String
  | .wrongType found expected => "invalid type: " ++ found.describe ++ ", expected " ++ expected
  | .wrongValue found expected => "invalid value: " ++ found.describe ++ ", expected " ++ expected
  | .unknownVariant name known =>
    "unknown variant " ++ inBackquotes name ++ ", " ++ alternatives known
  | .missingField name => "missing field " ++ inBackquotes name
  | .duplicateField name => "duplicate field " ++ inBackquotes name
  | .wrongLength length expected => s!"invalid length {length}, expected {expected}"
  | .cardinality value => Cardinality.complaint value

end DefinitionFault

end RecordMapping

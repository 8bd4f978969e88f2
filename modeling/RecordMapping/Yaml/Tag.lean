import RecordMapping.Yaml.Plain
import RecordMapping.Yaml.Token

/-!
# Tags of nodes

A tag either names a standard type, which types the scalars that carry it, or starts with an
exclamation mark and then names a variant of its own. Of all other tags only their presence counts.
-/

namespace RecordMapping

namespace Yaml

inductive Tag where
  | null
  | truth
  | integer
  | double
  /-- A tag of the document's own, without its exclamation mark. -/
  | own (name : String)
  /-- One that starts with an exclamation mark, but is no text. -/
  | unreadable
  | other
  deriving DecidableEq

namespace Tag

/-- What the names of standard types start with. -/
def standard : String := "tag:yaml.org,2002:"

/-- The standard types of scalars that are not just texts. -/
def standardTypes : List (String × Tag) :=
  [("null", .null), ("bool", .truth), ("int", .integer), ("float", .double)]

/-- The tag of a standard type by its full name. -/
def ofName (name : String) : Tag :=
  ((standardTypes.map fun type => (standard ++ type.1, type.2)).lookup name).getD .other

def beforeNull (text : TagText) : TagText :=
  text.takeWhile fun c => c != some (Char.ofNat 0)

def ofText (text : TagText) : Tag :=
  match text, text.mapM id with
  | [some '!'], _ => .own "!"
  | some '!' :: _, some name => .own (String.ofList (name.drop 1))
  | some '!' :: _, none => .unreadable
  | _, some name => ofName (String.ofList name)
  | _, none => .other

/-- How a tag of the document's own shows. -/
def shown (name : String) : String :=
  match name.toList with
  | '!' :: c :: rest => String.ofList ('!' :: c :: rest)
  | chars => String.ofList ('!' :: chars)

/-- The datum that a scalar stands for where nothing in particular is expected. -/
def scalar? (tag : Option Tag) (style : ScalarStyle) (text : String) : Option Datum :=
  match tag with
  | some .null => if Plain.isNullWord text then some .null else none
  | some .truth => (Plain.truth? text).map Datum.bool
  | some .integer => ((Plain.integer? text).bind Number.ofInt?).map Datum.number
  | some .double => Plain.double? text
  | some .other => some (.string text)
  | _ => if style = .plain then Plain.resolve? text else some (.string text)

end Tag

end Yaml

end RecordMapping

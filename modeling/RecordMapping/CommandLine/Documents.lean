import RecordMapping.Definition.Mappings
import RecordMapping.Files.Tree
import RecordMapping.Store.Format

/-!
# Documents for commands

Commands read documents from a file that holds one value or one value a line. The items of a list
count as documents. Entity values may be wrapped into an object as their member `values`.
-/

namespace RecordMapping

/-- Why a file gives no documents. -/
inductive DocumentsFault where
  | unreadable (path : String)
  | badLine (path : String) (number : Nat)
  deriving DecidableEq

namespace DocumentsFault

def message : DocumentsFault → String
  | .unreadable path => "Failed to read " ++ path
  | .badLine path number => s!"{path}:{number}: invalid JSON"

end DocumentsFault

/-- The documents of a text, or the number of the first line that holds none. -/
def documentsOf (text : List Char) : Except Nat (List Json) :=
  match Json.read? text with
  | some (.list items) => .ok items
  | some value => .ok [value]
  | none => readLines 1 (lines text)

def readDocuments (tree : FileTree) (path : String) : Except DocumentsFault (List Json) :=
  match tree.read ⟨path⟩ with
  | .error _ => .error (.unreadable path)
  | .ok text =>
    match documentsOf text.toList with
    | .ok documents => .ok documents
    | .error number => .error (.badLine path number)

/-- The member that wrapped entity values are in. -/
def valuesMember : String := "values"

/-- The entity values of a document, bare or wrapped. -/
def entityValues (document : Json) : Decoded EntityValues :=
  EntityValues.decode (.ofJson ((document.member? valuesMember).getD document))

end RecordMapping

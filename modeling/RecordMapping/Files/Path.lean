import RecordMapping.Text.Pieces

/-!
# Paths of files

A path is a text of names separated by slashes. It is kept as it is written, because messages show
it; empty names and dots for the same directory do not count.
-/

namespace RecordMapping

structure FilePath where
  text : String
  deriving DecidableEq

namespace FilePath

def isAbsolute (path : FilePath) : Bool := path.text.toList.head? == some '/'

def names (path : FilePath) : List String := (pieces '/' path.text.toList).map String.ofList

def join (base : FilePath) (path : FilePath) : FilePath :=
  if path.isAbsolute || base.text.isEmpty then path
  else if base.text.toList.getLast? == some '/' then ⟨base.text ++ path.text⟩
  else ⟨base.text ++ "/" ++ path.text⟩

/-- A text, from the end, without the slashes and the dots for the same directory that end it; a
dot at the beginning of a path counts. -/
def dropIdleEnd : List Char → List Char
  | ['/'] => ['/']
  | '/' :: rest => dropIdleEnd rest
  | ['.', '/'] => ['/']
  | '.' :: '/' :: rest => dropIdleEnd rest
  | text => text

/-- The last name of a path, unless it leads upwards. -/
def fileName? (path : FilePath) : Option String :=
  let name := (dropIdleEnd path.text.toList.reverse).takeWhile (· != '/')
  if name.isEmpty || name == ['.'] || name == ['.', '.'] then none
  else some (String.ofList name.reverse)

def parent? (path : FilePath) : Option FilePath :=
  match dropIdleEnd path.text.toList.reverse with
  | [] => none
  | ['/'] => none
  | reversed => some ⟨String.ofList (dropIdleEnd (reversed.dropWhile (· != '/'))).reverse⟩

/-- The part of the last name after its last dot. A dot at its beginning does not count. -/
def extension? (path : FilePath) : Option String :=
  path.fileName?.bind fun name =>
    let reversed := name.toList.reverse
    match reversed.dropWhile (· != '.') with
    | [] => none
    | ['.'] => none
    | _ => some (String.ofList (reversed.takeWhile (· != '.')).reverse)

end FilePath

end RecordMapping

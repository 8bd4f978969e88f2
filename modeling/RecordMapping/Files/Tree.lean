import RecordMapping.Files.Path

/-!
# Trees of files

A location is the list of names that lead to it from the root, and a tree holds directories and
files by the absolute paths of their locations. Paths lead through directories only; reading and
writing fail for the reasons a file system has.
-/

namespace RecordMapping

/-- The names that lead from the root to a file or directory. -/
abbrev Location : Type := List String

/-- What a location holds. The content of a file need not be text. -/
inductive FileEntry where
  | directory
  | file (text : String)
  | binary
  deriving DecidableEq

/-- Why a file or directory cannot be used. -/
inductive FileFault where
  | missing
  | notDirectory
  | isDirectory
  | exists
  | longName
  | nullCharacter
  | notText
  deriving DecidableEq

namespace FileFault

def message : FileFault → String
  | .missing => "No such file or directory (os error 2)"
  | .notDirectory => "Not a directory (os error 20)"
  | .isDirectory => "Is a directory (os error 21)"
  | .exists => "File exists (os error 17)"
  | .longName => "File name too long (os error 36)"
  | .nullCharacter => "file name contained an unexpected NUL byte"
  | .notText => "stream did not contain valid UTF-8"

end FileFault

/-- A tree of files with a directory from which relative paths start. -/
structure FileTree where
  start : Location
  entries : List (FilePath × FileEntry)

namespace FileTree

def absolute (location : Location) : FilePath := ⟨"/" ++ String.intercalate "/" location⟩

def putEntry (path : FilePath) (entry : FileEntry) :
    List (FilePath × FileEntry) → List (FilePath × FileEntry)
  | [] => [(path, entry)]
  | (other, old) :: rest =>
    if other = path then (path, entry) :: rest
    else (other, old) :: putEntry path entry rest

/-- What a location holds, if anything. The root is a directory. -/
def entry? (tree : FileTree) (location : Location) : Option FileEntry :=
  if location = [] then some .directory else tree.entries.lookup (absolute location)

def put (location : Location) (entry : FileEntry) (tree : FileTree) : FileTree :=
  { tree with entries := putEntry (absolute location) entry tree.entries }

def nameLimit : Nat := 255

def pathLimit : Nat := 4095

/-- Why no file system takes a path, if there is a reason. -/
def pathFault? (path : FilePath) : Option FileFault :=
  if path.text.any (·.toNat == 0) then some .nullCharacter
  else if path.text.isEmpty then some .missing
  else if pathLimit < path.text.utf8ByteSize then some .longName
  else none

def follow (location : Location) (name : String) : Except FileFault Location :=
  if name = "" ∨ name = "." then .ok location
  else if name = ".." then .ok location.dropLast
  else if nameLimit < name.utf8ByteSize then .error .longName
  else .ok (location ++ [name])

/-- Where written names lead: through directories only. -/
def walk (tree : FileTree) : List String → Location → Except FileFault Location
  | [], location => .ok location
  | name :: rest, location =>
    match tree.entry? location with
    | none => .error .missing
    | some .directory =>
      match follow location name with
      | .ok next => walk tree rest next
      | .error fault => .error fault
    | some _ => .error .notDirectory

def origin (tree : FileTree) (path : FilePath) : Location :=
  if path.isAbsolute then [] else tree.start

/-- The location of a path, which need not hold anything. -/
def locate (tree : FileTree) (path : FilePath) : Except FileFault Location :=
  match pathFault? path with
  | some fault => .error fault
  | none => walk tree path.names (tree.origin path)

def look (tree : FileTree) (path : FilePath) : Except FileFault FileEntry :=
  match tree.locate path with
  | .error fault => .error fault
  | .ok location =>
    match tree.entry? location with
    | none => .error .missing
    | some entry => .ok entry

def has (tree : FileTree) (path : FilePath) : Bool := (tree.look path).isOk

def hasDirectory (tree : FileTree) (path : FilePath) : Bool :=
  match tree.look path with
  | .ok .directory => true
  | _ => false

def read (tree : FileTree) (path : FilePath) : Except FileFault String :=
  match tree.look path with
  | .error fault => .error fault
  | .ok (.file text) => .ok text
  | .ok .directory => .error .isDirectory
  | .ok .binary => .error .notText

/-- The text of the file at a path, if there is something at all. -/
def readIfAny (tree : FileTree) (path : FilePath) : Except FileFault (Option String) :=
  match tree.read path with
  | .ok text => .ok (some text)
  | .error .missing => .ok none
  | .error fault => .error fault

def write (path : FilePath) (text : String) (tree : FileTree) : Except FileFault FileTree :=
  match tree.locate path with
  | .error fault => .error fault
  | .ok location =>
    match tree.entry? location with
    | some .directory => .error .isDirectory
    | _ => .ok (tree.put location (.file text))

/-- The tree with the directories that written names lead through, as far as they could be made, and
what stood in the way. -/
def makeDirectoriesFrom : List String → Location → FileTree → FileTree × Option FileFault
  | [], _, tree => (tree, none)
  | name :: rest, location, tree =>
    match follow location name with
    | .error fault => (tree, some fault)
    | .ok next =>
      match tree.entry? next with
      | none => makeDirectoriesFrom rest next (tree.put next .directory)
      | some .directory => makeDirectoriesFrom rest next tree
      | some _ => (tree, some (if rest.isEmpty then .exists else .notDirectory))

/-- The tree with a directory at a path and all directories above it. Nothing has to be made for an
empty path. -/
def makeDirectories (path : FilePath) (tree : FileTree) : FileTree × Option FileFault :=
  match pathFault? path with
  | some .missing => (tree, none)
  | some fault => (tree, some fault)
  | none => makeDirectoriesFrom path.names (tree.origin path) tree

def list (tree : FileTree) (path : FilePath) : Except FileFault (List String) :=
  match tree.locate path with
  | .error fault => .error fault
  | .ok location =>
    match tree.entry? location with
    | none => .error .missing
    | some .directory =>
      let path := absolute location
      .ok (tree.entries.filterMap fun entry =>
        if entry.1.parent? = some path then entry.1.fileName? else none)
    | some _ => .error .notDirectory

/-- The locations that written names lead through, whatever they hold. -/
def trailFrom : List String → Location → List Location
  | [], location => [location]
  | name :: rest, location =>
    match follow location name with
    | .ok next => location :: trailFrom rest next
    | .error _ => [location]

def trail (tree : FileTree) (path : FilePath) : List Location :=
  trailFrom path.names (tree.origin path)

/-- The entries of a tree that another tree does not have. -/
def entriesSince (earlier tree : FileTree) : List (FilePath × FileEntry) :=
  tree.entries.filter fun entry => earlier.entries.lookup entry.1 != some entry.2

end FileTree

end RecordMapping

import RecordMapping.CommandLine.Identifiers
import RecordMapping.CommandLine.Needs
import RecordMapping.CommandLine.Run

/-!
# The program

Reads the files that a command needs into a tree, runs the command on it, writes what it changed and
prints its report.
-/

namespace RecordMapping

namespace Main

def entryAt (location : Location) : IO (Option FileEntry) := do
  match ← (IO.FS.readBinFile (FileTree.absolute location).text).toBaseIO with
  | .ok bytes =>
    match String.fromUTF8? bytes with
    | some text => return some (.file text)
    | none => return some .binary
  | .error (.noFileOrDirectory ..) => return none
  | .error (.inappropriateType ..) => return some .directory
  | .error _ => return some .binary

/-- Puts what a path leads through into a tree, down to the first thing that is no directory. -/
def gatherTrail : List Location → FileTree → IO FileTree
  | [], tree => return tree
  | location :: rest, tree => do
    match ← entryAt location with
    | none => return tree
    | some .directory => gatherTrail rest (tree.put location .directory)
    | some entry => return tree.put location entry

def namesAt (location : Location) : IO (List String) := do
  let directory ← IO.FS.realPath (FileTree.absolute location).text
  return (← directory.readDir).toList.map fun entry => entry.fileName

/-- Puts what a path leads to into a tree. Of the entries of a directory only the names are taken;
until they are needed they count as files that hold no text. -/
def gather (path : FilePath) (tree : FileTree) : IO FileTree := do
  let trail := tree.trail path
  let tree ← gatherTrail trail tree
  match trail.getLast? with
  | none => return tree
  | some location =>
    if tree.entry? location != some .directory then return tree
    let fresh := (← namesAt location).filter fun name =>
      (tree.entry? (location ++ [name])).isNone
    return fresh.foldl (fun tree name => tree.put (location ++ [name]) .binary) tree

/-- A tree with the files that an invocation needs. -/
def gatherFor (invocation : Invocation) (start : FileTree) : IO FileTree := do
  let mut tree := start
  for _ in List.range Invocation.rounds do
    for path in invocation.paths tree do
      tree ← gather path tree
  return tree

/-- An empty tree that starts at the working directory. -/
def emptyTree : IO FileTree := do
  let here : FilePath := ⟨(← IO.currentDir).toString⟩
  let trail := FileTree.trail ⟨[], []⟩ here
  gatherTrail trail ⟨trail.getLast?.getD [], []⟩

/-- Writes an entry of a tree to the file system. -/
def writeEntry (path : FilePath) (entry : FileEntry) : IO Unit := do
  match entry with
  | .directory => IO.FS.createDirAll path.text
  | .file text => IO.FS.writeFile path.text text
  | .binary => return

def printReport (report : Report) : IO Unit := do
  IO.print report.outputText
  for event in report.log do
    IO.eprintln event.line
  for failure in report.failure do
    IO.eprintln ("Error: " ++ ": ".intercalate failure)

def randomNumber : IO Nat := do
  return (← IO.getRandomBytes 16).foldl (fun n byte => 256 * n + byte.toNat) 0

def run (invocation : Invocation) : IO UInt32 := do
  let tree ← gatherFor invocation (← emptyTree)
  let (workspace, report) := invocation.run ⟨tree, .ofNumber (← randomNumber)⟩
  for (path, entry) in tree.entriesSince workspace.tree do
    writeEntry path entry
  printReport report
  return report.code.toUInt32

def usage : String :=
  "Usage: xentity [--config PATH] [--verbose] COMMAND\n\n" ++
    "Commands:\n" ++
    "  init [PATH] [--name NAME]\n" ++
    "  validate\n" ++
    "  status\n" ++
    "  list --entity-type ID [--limit COUNT] [--offset COUNT]\n" ++
    "  extract --entity-type ID [--input FILE]\n" ++
    "  create --entity-type ID --input FILE [--save]"

end Main

end RecordMapping

open RecordMapping in
def main (arguments : List String) : IO UInt32 := do
  let config := (← IO.getEnv "XENTITY_CONFIG").getD Invocation.defaultConfig
  match Arguments.read? config arguments with
  | none =>
    IO.eprintln Main.usage
    return 2
  | some .help =>
    IO.println Main.usage
    return 0
  | some .version =>
    IO.println versionText
    return 0
  | some (.run invocation) => Main.run invocation

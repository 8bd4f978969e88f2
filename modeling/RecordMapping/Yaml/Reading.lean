import RecordMapping.Definition.Shape
import RecordMapping.Yaml.Node

/-!
# Reading the nodes of a document

Scalars of YAML have no types of their own, so a document is read with the shape of what it defines.
Where a text is expected every scalar is one; where nothing in particular is expected plain scalars
stand for what they look like. An alias jumps to the node at its place. Collections may be nested
only so deep and jumps are only so many, which also ends the reading of a node inside itself.
-/

namespace RecordMapping

namespace Yaml

abbrev Reading (α : Type) : Type := StateT Nat Option α

namespace Node

/-- Whether a node is an empty plain scalar, which stands for a collection without parts. -/
def isEmpty : Node → Bool
  | .scalar _ .plain text => text.isEmpty
  | _ => false

def tag? : Node → Option Tag
  | .scalar tag _ _ => tag
  | .sequence tag _ => tag
  | .mapping tag _ => tag
  | .alias _ => none

/-- The name in a tag of the document's own. -/
def ownName? (node : Node) : Option String :=
  match node.tag? with
  | some (.own name) => some name
  | _ => none

def text? : Node → Option String
  | .scalar _ _ text => some text
  | _ => none

/-- The text of a scalar that may stand for a value of a standard type: one that is plain, or one
that keeps its lines and has the tag of the type. -/
def typedText? (type : Tag) : Node → Option String
  | .scalar _ .plain text => some text
  | .scalar (some tag) .literal text => if tag = type then some text else none
  | _ => none

def truth? (node : Node) : Option Bool := (node.typedText? .truth).bind Plain.truth?

def signed? (node : Node) : Option Int := (node.typedText? .integer).bind Plain.signed?

/-- The variant that a node names: by a tag of its own before nothing, or by its text. -/
def variant? (node : Node) : Option String :=
  match node.ownName?, node with
  | some name, .scalar _ .plain text => if Plain.isNull text then some name else none
  | some _, _ => none
  | none, node => node.text?

/-- Whether a node is null where that is possible. A tag for null needs a word for it. -/
def isNull? : Node → Option Bool
  | .scalar (some .null) .plain text => if Plain.isNullWord text then some true else none
  | .scalar none .plain text => some (Plain.isNull text)
  | _ => some false

def isCollection : Node → Bool
  | .sequence _ _ | .mapping _ _ => true
  | _ => false

def items? : Node → Option (List Node)
  | .sequence _ items => some items
  | node => if node.isEmpty then some [] else none

def entries? : Node → Option (List (Node × Node))
  | .mapping _ entries => some entries
  | node => if node.isEmpty then some [] else none

end Node

namespace Document

/-- How many collections may stand one inside the other. -/
def depthLimit : Nat := 128

/-- How many jumps may be made for every unit of the size of a document. -/
def jumpsPerUnit : Nat := 100

/-- What a node is: an alias jumps to the node at its place. -/
def head (document : Document) : Node → Reading Node
  | .alias place => do
    match ← get, document.targets.lookup place with
    | jumps + 1, some node =>
      set jumps
      return node
    | _, _ => failure
  | node => return node

def key (document : Document) (node : Node) : Reading String := do
  (← document.head node).text?

abbrev PartReader : Type := Shape → Node → Reading Datum

/-- The entries of a mapping with texts as keys. -/
def named (document : Document) (part : Node → Reading Datum) (entries : List (Node × Node)) :
    Reading Datum := do
  return .mapping (← entries.mapM fun (key, value) => do
    let name ← document.key key
    return (.string name, ← part value))

/-- The entries of a structure; unknown members are not looked at. -/
def members (document : Document) (part : PartReader) (known : List (String × Shape))
    (entries : List (Node × Node)) : Reading Datum := do
  return .mapping (← entries.filterMapM fun (key, value) => do
    let name ← document.key key
    match known.lookup name with
    | none => return none
    | some shape => return some (.string name, ← part shape value))

/-- A node where nothing in particular is expected, whatever its own tag says. The keys of a mapping
must differ, unless it is bare. -/
def plain (part : PartReader) (bare : Bool) : Node → Reading Datum
  | .scalar tag style text => Tag.scalar? tag style text
  | .sequence _ items => do return .sequence (← items.mapM (part (.anything bare)))
  | .mapping _ entries => do
    let entries ← entries.mapM fun (key, value) => do
      return (← part (.anything bare) key, ← part (.anything bare) value)
    if bare || Datum.distinctKeys entries then return .mapping entries else failure
  | .alias _ => failure

/-- A node where nothing in particular is expected. A tag of its own is a key for what it is the tag
of; bare nodes have none. -/
def anything (part : PartReader) (bare : Bool) (node : Node) : Reading Datum :=
  match node.ownName? with
  | none => plain part bare node
  | some name => do
    if bare then failure
    return .mapping [(.string (Tag.shown name), ← plain part bare node)]

/-- The members of a kind that one of them names. A sequence starts with the kind. -/
def kinded (part : PartReader) (member : String) : Node → Reading Datum
  | .sequence _ [] => return .sequence []
  | .sequence _ (kind :: rest) => do
    let kind ← part .text kind
    return .sequence (kind :: (← rest.mapM (part (.anything true))))
  | .mapping _ entries => do
    return .mapping (← entries.mapM fun (key, value) => do
      let key ← part (.anything true) key
      return (key, ← part (if key.isText member then .text else .anything true) value))
  | _ => failure

def entriesOrNull (document : Document) (part : Node → Reading Datum) (node : Node) :
    Reading Datum :=
  match node.ownName?, node with
  | none, .mapping _ entries => document.named part entries
  | none, .scalar tag style text => do
    match ← Tag.scalar? tag style text with
    | .null => return .null
    | _ => failure
  | _, _ => failure

/-- Reads a node that is no alias, given how its parts are read. -/
def level (document : Document) (part : PartReader) (shape : Shape) (node : Node) :
    Reading Datum := do
  if shape.isOptional then
    if ← node.isNull? then return .null
  match shape.core with
  | .text => return .string (← node.text?)
  | .truth => return .bool (← node.truth?)
  | .integer => return .number (← node.signed?.bind Number.ofInt?)
  | .variant => return .string (← node.variant?)
  | .optional _ => failure
  | .sequence item => return .sequence (← (← node.items?).mapM (part item))
  | .dictionary value => document.named (part value) (← node.entries?)
  | .entries value => document.entriesOrNull (part value) node
  | .record known => document.members part known (← node.entries?)
  | .kinded member => if node.ownName?.isSome then failure else kinded part member node
  | .anything bare => anything part bare node

/-- Reads a node in which so many collections may stand one inside the other. -/
def reader (document : Document) : Nat → PartReader
  | 0, shape, node => do
    let node ← document.head node
    if node.isCollection then failure
    document.level (fun _ _ => failure) shape node
  | depth + 1, shape, node => do
    document.level (document.reader depth) shape (← document.head node)

def read? (document : Document) (shape : Shape) : Option Datum :=
  (document.reader depthLimit shape document.root).run' (jumpsPerUnit * document.root.size)

end Document

def read? (shape : Shape) (text : String) : Option Datum :=
  ((tokens? text.toList).bind Document.ofTokens?).bind (·.read? shape)

end Yaml

end RecordMapping

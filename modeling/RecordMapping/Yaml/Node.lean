import RecordMapping.Yaml.Tag

/-!
# Nodes of a YAML text

Tokens are put together to the nodes of a document. What is left out between tokens is an empty
plain scalar. Anchors give places to nodes, and aliases tell the places of nodes; since a place may
be given away again, and a node may hold an alias for itself, aliases stay aliases.
-/

namespace RecordMapping

namespace Yaml

inductive Node where
  | scalar (tag : Option Tag) (style : ScalarStyle) (text : String)
  | sequence (tag : Option Tag) (items : List Node)
  | mapping (tag : Option Tag) (entries : List (Node × Node))
  | alias (place : Nat)

namespace Node

def empty : Node := .scalar none .plain ""

mutual

/-- How many scalars, aliases, beginnings and ends of collections a node has. -/
def size : Node → Nat
  | .scalar _ _ _ => 1
  | .sequence _ items => 2 + itemSizes items
  | .mapping _ entries => 2 + entrySizes entries
  | .alias _ => 1
termination_by structural node => node

def itemSizes : List Node → Nat
  | [] => 0
  | item :: rest => item.size + itemSizes rest
termination_by structural items => items

def entrySizes : List (Node × Node) → Nat
  | [] => 0
  | (key, value) :: rest => key.size + value.size + entrySizes rest
termination_by structural entries => entries

end

end Node

/-- A document: its root, and the nodes at places. Of several nodes at a place the first one
counts. -/
structure Document where
  root : Node
  targets : List (Nat × Node)

/-- The tokens still to be read, what the handles of tags stand for, the places of anchored names,
and the nodes at places, those that start last first. -/
structure Assembly where
  rest : List Token
  handles : List (String × TagText)
  places : List (String × Nat)
  targets : List (Nat × Node)

namespace Assembly

def next (assembly : Assembly) : Assembly := { assembly with rest := assembly.rest.drop 1 }

def expect? (token : Token) (assembly : Assembly) : Option Assembly :=
  if assembly.rest.head? = some token then some assembly.next else none

def sees (tokens : List Token) (assembly : Assembly) : Bool :=
  assembly.rest.head?.any tokens.contains

/-- The handles of tags that need no directive. -/
def standardHandles : List (String × TagText) :=
  [("!", [some '!']), ("!!", Tag.standard.toList.map some)]

def tagOf? (assembly : Assembly) (handle : String) (suffix : TagText) : Option Tag :=
  let start? :=
    if handle.isEmpty then some [] else (assembly.handles ++ standardHandles).lookup handle
  start?.map fun start => .ofText (Tag.beforeNull start ++ Tag.beforeNull suffix)

structure Properties where
  anchor : Option String
  tag : Option Tag

def anchor? (assembly : Assembly) : Option String × Assembly :=
  match assembly.rest with
  | .anchor name :: _ => (some name, assembly.next)
  | _ => (none, assembly)

/-- A tag, if one comes next; its handle has to be known. -/
def tag? (assembly : Assembly) : Option (Option Tag × Assembly) :=
  match assembly.rest with
  | .tag handle suffix :: _ =>
    (assembly.tagOf? handle suffix).map fun tag => (some tag, assembly.next)
  | _ => some (none, assembly)

/-- The anchor and the tag before a node, in either order. -/
def properties? (assembly : Assembly) : Option (Properties × Assembly) :=
  match assembly.anchor? with
  | (some anchor, assembly) =>
    assembly.tag?.map fun (tag, assembly) => (⟨some anchor, tag⟩, assembly)
  | (none, assembly) =>
    assembly.tag?.map fun (tag, assembly) =>
      let (anchor, assembly) := assembly.anchor?
      (⟨anchor, tag⟩, assembly)

/-- The next free place: as many names come before it. A name that gets another place is not counted
again, so that the name after it shares its place. -/
def freePlace (assembly : Assembly) : Nat := assembly.places.length

def givePlace (name : String) (assembly : Assembly) : Assembly :=
  { assembly with
    places := (name, assembly.freePlace) :: assembly.places.filter (·.1 != name) }

/-- The state with a node at a place, behind as many nodes as have got a place since it started. -/
def putTarget (place before : Nat) (node : Node) (assembly : Assembly) : Assembly :=
  let later := assembly.targets.length - before
  { assembly with
    targets := assembly.targets.take later ++ (place, node) :: assembly.targets.drop later }

mutual

/-- A node. In block style collections may start; an unindented sequence only after a key. -/
def node? (inBlock unindented : Bool) : Nat → Assembly → Option (Node × Assembly)
  | 0, _ => none
  | fuel + 1, assembly =>
    match assembly.rest with
    | .alias name :: _ =>
      (assembly.places.lookup name).map fun place => (.alias place, assembly.next)
    | _ => do
      let (properties, assembly) ← assembly.properties?
      match properties.anchor with
      | none => content? inBlock unindented properties fuel assembly
      | some name =>
        let place := assembly.freePlace
        let before := assembly.targets.length
        let (node, assembly) ←
          content? inBlock unindented properties fuel (assembly.givePlace name)
        return (node, assembly.putTarget place before node)

def content? (inBlock unindented : Bool) (properties : Properties) :
    Nat → Assembly → Option (Node × Assembly)
  | 0, _ => none
  | fuel + 1, assembly =>
    let tag := properties.tag
    match assembly.rest with
    | .entry :: _ =>
      if unindented then
        (unindentedItems? fuel assembly).map fun (items, assembly) =>
          (.sequence tag items, assembly)
      else absent? properties assembly
    | .scalar text style :: _ => some (.scalar tag style text, assembly.next)
    | .flowSequence :: _ =>
      (flowItems? true fuel assembly.next).map fun (items, assembly) =>
        (.sequence tag items, assembly)
    | .flowMapping :: _ =>
      (flowEntries? true fuel assembly.next).map fun (entries, assembly) =>
        (.mapping tag entries, assembly)
    | .blockSequence :: _ =>
      if inBlock then
        (blockItems? fuel assembly.next).map fun (items, assembly) =>
          (.sequence tag items, assembly)
      else absent? properties assembly
    | .blockMapping :: _ =>
      if inBlock then
        (blockEntries? fuel assembly.next).map fun (entries, assembly) =>
          (.mapping tag entries, assembly)
      else absent? properties assembly
    | _ => absent? properties assembly

/-- A node without content, which has to have a property. -/
def absent? (properties : Properties) (assembly : Assembly) : Option (Node × Assembly) :=
  if properties.anchor.isSome || properties.tag.isSome then
    some (.scalar properties.tag .plain "", assembly)
  else none

/-- The items of a block sequence up to its end. -/
def blockItems? : Nat → Assembly → Option (List Node × Assembly)
  | 0, _ => none
  | fuel + 1, assembly =>
    match assembly.rest with
    | .blockEnd :: _ => some ([], assembly.next)
    | .entry :: _ => do
      let assembly := assembly.next
      let (item, assembly) ←
        if assembly.sees [.entry, .blockEnd] then some (.empty, assembly)
        else node? true false fuel assembly
      let (items, assembly) ← blockItems? fuel assembly
      return (item :: items, assembly)
    | _ => none

/-- The items of a sequence that is not indented more than its key. -/
def unindentedItems? : Nat → Assembly → Option (List Node × Assembly)
  | 0, _ => none
  | fuel + 1, assembly =>
    match assembly.rest with
    | .entry :: _ => do
      let assembly := assembly.next
      let (item, assembly) ←
        if assembly.sees [.entry, .key, .value, .blockEnd] then some (.empty, assembly)
        else node? true false fuel assembly
      let (items, assembly) ← unindentedItems? fuel assembly
      return (item :: items, assembly)
    | _ => some ([], assembly)

/-- A key or a value of a block mapping, which may be left out. -/
def blockPart? : Nat → Assembly → Option (Node × Assembly)
  | 0, _ => none
  | fuel + 1, assembly =>
    if assembly.sees [.key, .value, .blockEnd] then some (.empty, assembly)
    else node? true true fuel assembly

def blockEntries? : Nat → Assembly → Option (List (Node × Node) × Assembly)
  | 0, _ => none
  | fuel + 1, assembly =>
    match assembly.rest with
    | .blockEnd :: _ => some ([], assembly.next)
    | .key :: _ => do
      let (key, assembly) ← blockPart? fuel assembly.next
      let (value, assembly) ←
        match assembly.expect? .value with
        | some assembly => blockPart? fuel assembly
        | none => some (.empty, assembly)
      let (entries, assembly) ← blockEntries? fuel assembly
      return ((key, value) :: entries, assembly)
    | _ => none

/-- A comma, except before the first entry of a flow collection. -/
def separated? (isFirst : Bool) (assembly : Assembly) : Option Assembly :=
  if isFirst then some assembly else assembly.expect? .comma

/-- The items of a flow sequence up to its end. A pair with a key stands for a mapping of one
entry. -/
def flowItems? (isFirst : Bool) : Nat → Assembly → Option (List Node × Assembly)
  | 0, _ => none
  | fuel + 1, assembly =>
    if assembly.sees [.flowSequenceEnd] then some ([], assembly.next)
    else do
      let assembly ← separated? isFirst assembly
      if assembly.sees [.flowSequenceEnd] then return ([], assembly.next)
      let (item, assembly) ←
        match assembly.expect? .key with
        | some assembly => flowPair? fuel assembly
        | none => node? false false fuel assembly
      let (items, assembly) ← flowItems? false fuel assembly
      return (item :: items, assembly)

/-- A pair inside a flow sequence, after its key's mark. -/
def flowPair? : Nat → Assembly → Option (Node × Assembly)
  | 0, _ => none
  | fuel + 1, assembly => do
    let (key, assembly) ←
      if assembly.sees [.value, .comma, .flowSequenceEnd] then some (.empty, assembly.next)
      else node? false false fuel assembly
    let (value, assembly) ←
      match assembly.expect? .value with
      | some assembly =>
        if assembly.sees [.comma, .flowSequenceEnd] then some (.empty, assembly)
        else node? false false fuel assembly
      | none => some (.empty, assembly)
    return (.mapping none [(key, value)], assembly)

/-- The entries of a flow mapping up to its end. A key without its mark has no value. -/
def flowEntries? (isFirst : Bool) : Nat → Assembly → Option (List (Node × Node) × Assembly)
  | 0, _ => none
  | fuel + 1, assembly =>
    if assembly.sees [.flowMappingEnd] then some ([], assembly.next)
    else do
      let assembly ← separated? isFirst assembly
      if assembly.sees [.flowMappingEnd] then return ([], assembly.next)
      let ((key, value), assembly) ←
        match assembly.expect? .key with
        | some assembly => flowEntry? fuel assembly
        | none =>
          (node? false false fuel assembly).map fun (key, assembly) => ((key, .empty), assembly)
      let (entries, assembly) ← flowEntries? false fuel assembly
      return ((key, value) :: entries, assembly)

/-- A key and its value in a flow mapping, after the key's mark; either may be left out. -/
def flowEntry? : Nat → Assembly → Option ((Node × Node) × Assembly)
  | 0, _ => none
  | fuel + 1, assembly => do
    let (key, assembly) ←
      if assembly.sees [.value, .comma, .flowMappingEnd] then some (.empty, assembly)
      else node? false false fuel assembly
    let (value, assembly) ←
      match assembly.expect? .value with
      | some assembly =>
        if assembly.sees [.comma, .flowMappingEnd] then some (.empty, assembly)
        else node? false false fuel assembly
      | none => some (.empty, assembly)
    return ((key, value), assembly)

end

/-- The directives before a document: at most one version, which has to be known, and one prefix for
a handle. -/
def directives? (versioned : Bool) : List Token → List (String × TagText) →
    Option (List (String × TagText) × List Token)
  | .version major minor :: rest, handles =>
    if versioned ∨ major ≠ 1 ∨ (minor ≠ 1 ∧ minor ≠ 2) then none
    else directives? true rest handles
  | .tagPrefix handle start :: rest, handles =>
    if (handles.lookup handle).isSome then none
    else directives? versioned rest (handles ++ [(handle, start)])
  | rest, handles => some (handles, rest)

/-- The tokens of a document after its directives, and whether its beginning was marked. -/
def afterStart? (marked : Bool) : List Token → Option (List Token × Bool)
  | .documentStart :: rest => some (rest, true)
  | rest => if marked ∨ rest.isEmpty then none else some (rest, false)

/-- The content of a document; after a mark there may be none. -/
def document? (marked : Bool) (assembly : Assembly) : Option (Node × Assembly) :=
  let isOver := assembly.rest.head?.all fun token =>
    match token with
    | .version _ _ | .tagPrefix _ _ | .documentStart | .documentEnd => true
    | _ => false
  if marked && isOver then some (.empty, assembly)
  else node? true false (4 * assembly.rest.length + 4) assembly

end Assembly

def Document.ofTokens? (tokens : List Token) : Option Document := do
  let (handles, rest) ← Assembly.directives? false tokens []
  let (rest, marked) ← Assembly.afterStart? (rest.length < tokens.length) rest
  let (root, assembly) ← Assembly.document? marked ⟨rest, handles, [], []⟩
  if assembly.rest.all (· == .documentEnd) then return ⟨root, assembly.targets⟩ else none

end Yaml

end RecordMapping

import RecordMapping.JsonPath.Program
import RecordMapping.Json.Basic

/-!
# Running path queries

The machine holds the list of nodes matched so far. Steps replace the list; a filter works on the
list through operands. An operand that comes from the tested values remembers the values it was
reached from and the last member asked for, since a filter keeps objects *having* a member and
compares the member afterwards. A path from the root inside a filter runs on a walker of its own.
-/

namespace RecordMapping

namespace JsonPath

/-- A value in a document, with the positions that lead to it, the last one first. -/
structure Node where
  trail : List Nat
  value : Json

/-- How the next instruction moves. -/
inductive Mark where
  | into
  | descend
  | bracket
  deriving DecidableEq

/-- An operand of a relation. Nodes keep the values they were reached from, if they were, and the
member last asked for. -/
inductive Operand where
  | text (value : String)
  | number (value : Binary64)
  | truth (value : Bool)
  | nodes (origin : Option (List Node)) (member : Option String) (found : List Node)

/-- Nodes of equal values are equal as far as relations go. -/
def Node.same (a b : Node) : Bool := a.value.same b.value

/-- The list without the nodes equal to an earlier one. -/
def distinct (nodes : List Node) : List Node :=
  (nodes.foldl (fun kept node => if kept.any (node.same ·) then kept else node :: kept) []).reverse

def Node.children (node : Node) : List Node :=
  let values := match node.value with
    | .list items => items
    | .object members => members.map Prod.snd
    | _ => []
  values.zipIdx.map fun (value, position) => ⟨position :: node.trail, value⟩

/-- The members of an object with their places counted from a number on. -/
def memberFrom? (name : String) : Nat → List Member → Option (Nat × Json)
  | _, [] => none
  | place, (key, value) :: rest =>
    if key = name then some (place, value) else memberFrom? name (place + 1) rest

def Node.member? (name : String) (node : Node) : Option Node :=
  match node.value with
  | .object members =>
    (memberFrom? name 0 members).map fun (place, value) => ⟨place :: node.trail, value⟩
  | _ => none

/-- The list position for a written one: negative ones count from the end. -/
def positionIn (length : Nat) (written : Int) : Nat :=
  if written < 0 then (written + length).toNat else min written.toNat length

def Node.item? (written : Int) (node : Node) : Option Node :=
  match node.value with
  | .list items =>
    let position := positionIn items.length written
    items[position]?.map fun value => ⟨position :: node.trail, value⟩
  | _ => none

mutual

/-- A value and everything below it, in the order of the text, each with its trail. -/
def valueNodes (trail : List Nat) : Json → List Node
  | .list items => ⟨trail, .list items⟩ :: itemNodes trail 0 items
  | .object members => ⟨trail, .object members⟩ :: memberNodes trail 0 members
  | .null => [⟨trail, .null⟩]
  | .bool b => [⟨trail, .bool b⟩]
  | .number n => [⟨trail, .number n⟩]
  | .string s => [⟨trail, .string s⟩]
termination_by structural value => value

/-- The items of a list and everything below them. -/
def itemNodes (trail : List Nat) (place : Nat) : List Json → List Node
  | [] => []
  | item :: rest => valueNodes (place :: trail) item ++ itemNodes trail (place + 1) rest
termination_by structural items => items

/-- The values of an object and everything below them. -/
def memberNodes (trail : List Nat) (place : Nat) : List (String × Json) → List Node
  | [] => []
  | (_, value) :: rest => valueNodes (place :: trail) value ++ memberNodes trail (place + 1) rest
termination_by structural members => members

end

/-- The nodes and everything below them, each node before its children. -/
def withDescendants (nodes : List Node) : List Node :=
  nodes.flatMap fun node => valueNodes node.trail node.value

/-- All descendants: the children of each node before those of its first child. -/
def allBelow (nodes : List Node) : List Node := (withDescendants nodes).flatMap Node.children

def namedBelow (name : String) (nodes : List Node) : List Node :=
  (withDescendants nodes).filterMap (Node.member? name)

/-- The objects that have a member of a name at any depth. -/
def holdersBelow (name : String) (nodes : List Node) : List Node :=
  (withDescendants nodes).filter fun node => (node.member? name).isSome

/-- The items at a position at any depth; a negative position is the first. -/
def itemsBelow (position : Int) (nodes : List Node) : List Node :=
  (withDescendants nodes).filterMap (Node.item? position.toNat)

/-- The items at a position of lists, and of the lists that are members of objects. -/
def itemsOf (position : Int) (node : Node) : List Node :=
  match node.value with
  | .object _ => node.children.filterMap (Node.item? position)
  | _ => (node.item? position).toList

/-- The items of a list from a position to another, every so many. -/
def sliceOf (start stop : Option Int) (stride : Option Nat) (node : Node) : List Node :=
  match node.value with
  | .list items =>
    let first := match start with
      | some n => positionIn items.length n
      | none => 0
    let last := match stop with
      | some n => positionIn items.length n
      | none => items.length
    let every := stride.getD 1
    if every = 0 then []
    else (node.children.take last).drop first |>.zipIdx.filterMap fun (item, place) =>
      if place % every = 0 then some item else none
  | _ => []

mutual

/-- The objects that have a member: the value itself, or those inside a list at any depth. -/
def holders (name : String) (trail : List Nat) : Json → List Node
  | .object members =>
    if (findMember name members).isSome then [⟨trail, .object members⟩] else []
  | .list items => itemHolders name trail 0 items
  | _ => []
termination_by structural value => value

/-- The objects that have a member among the items of a list. -/
def itemHolders (name : String) (trail : List Nat) (place : Nat) : List Json → List Node
  | [] => []
  | item :: rest => holders name (place :: trail) item ++ itemHolders name trail (place + 1) rest
termination_by structural items => items

end

/-- The list without the nodes found at an earlier place of the document. -/
def distinctPlaces (nodes : List Node) : List Node :=
  (nodes.foldl
    (fun kept node => if kept.any (·.trail == node.trail) then kept else node :: kept) []).reverse

namespace Relation

/-- The relation between the same operands in the other order. -/
def converse : Relation → Relation
  | .less => .greater
  | .lessEqual => .greaterEqual
  | .greater => .less
  | .greaterEqual => .lessEqual
  | relation => relation

/-- The relation between two things in a given order. -/
def ofOrdering (relation : Relation) (ordering : Ordering) : Bool :=
  match relation with
  | .equal => ordering == .eq
  | .notEqual => ordering != .eq
  | .less => ordering == .lt
  | .lessEqual => ordering != .gt
  | .greater => ordering == .gt
  | .greaterEqual => ordering != .lt
  | .both => true
  | .either => true

def numbers (relation : Relation) (a b : Binary64) : Bool := relation.ofOrdering (a.compare b)

/-- The relation between texts; as conditions, texts hold when they are not empty. -/
def texts (relation : Relation) (a b : String) : Bool :=
  match relation with
  | .both => !a.isEmpty && !b.isEmpty
  | .either => !a.isEmpty || !b.isEmpty
  | _ => relation.ofOrdering (compare a b)

/-- The relation between truth values; false comes before true. -/
def truths (relation : Relation) (a b : Bool) : Bool :=
  match relation with
  | .both => a && b
  | .either => a || b
  | _ => relation.ofOrdering (compare a.toNat b.toNat)

/-- The nodes that two lists leave under a relation. -/
def nodeLists (relation : Relation) (a b : List Node) : List Node :=
  match relation with
  | .equal | .both => distinct (a.filter fun node => b.any (node.same ·))
  | .notEqual => a.flatMap fun node => (b.filter (!node.same ·)).map fun _ => node
  | .either => distinct (a ++ b)
  | _ => []

/-- Whether a value is related to an operand that is no node list, if the types agree. -/
def valueTo? (relation : Relation) (value : Json) (operand : Operand) : Option Bool :=
  match value, operand with
  | .string a, .text b => some (relation.texts a b)
  | .number a, .number b => some (relation.numbers a.toBinary64 b)
  | .bool a, .truth b => some (relation.truths a b)
  | _, _ => none

/-- Whether a node is related to an operand: the node itself, or its member last asked for. -/
def nodeTo (relation : Relation) (member : Option String) (operand : Operand) (node : Node) :
    Bool :=
  let asked := match node.value, member with
    | .object members, some name => (findMember name members).bind (relation.valueTo? · operand)
    | .object _, none => none
    | value, _ => relation.valueTo? value operand
  asked.getD false

end Relation

/-- The nodes having a member equal to one of the given nodes, once for every such pair. -/
def originsOf (origin found : List Node) : List Node :=
  origin.flatMap fun node => match node.value with
    | .object members => members.flatMap fun (_, value) =>
        (found.filter fun hit => value.same hit.value).map fun _ => node
    | _ => []

/-- The outcome of relating nodes to something, given the nodes that passed. -/
def Operand.afterTest (origin : Option (List Node)) (againstNodes : Bool)
    (passed : List Node) : Operand :=
  if passed.isEmpty then .truth false
  else match origin with
    | none => .nodes none none passed
    | some reached =>
      .nodes (some (if againstNodes then reached else originsOf reached passed)) none passed

/-- The outcome of a relation between two operands. -/
def Operand.related (relation : Relation) : Operand → Operand → Operand
  | .text a, .text b => .truth (relation.texts a b)
  | .number a, .number b => .truth (relation.numbers a b)
  | .truth a, .truth b => .truth (relation.truths a b)
  | .nodes (some reached) _ _, .nodes _ _ found' =>
    .afterTest (some reached) true (relation.nodeLists reached found')
  | .nodes none _ found, .nodes origin' _ found' =>
    .afterTest none true (relation.nodeLists found (origin'.getD found'))
  | .nodes origin member found, operand =>
    .afterTest origin false (found.filter (relation.nodeTo member operand))
  | operand, .nodes origin member found =>
    let relation := relation.converse
    .afterTest origin false (found.filter (relation.nodeTo member operand))
  | _, _ => .truth false

/-- The nodes matched so far, the pending moves, and the operands; `none` stands for the tested
values as they are. -/
structure Walker where
  nodes : List Node
  marks : List Mark
  operands : List (Option Operand)

namespace Walker

/-- Replaces the matched nodes; when there are none left the last operand goes with them. -/
def narrowed (walker : Walker) (nodes : List Node) : Walker :=
  { walker with
    nodes := nodes
    operands := if nodes.isEmpty then walker.operands.tail else walker.operands }

/-- Follows a path inside a filter. `search` finds the nodes below a list; `keeps` tells the values
that have what is searched. -/
def filtered (walker : Walker) (member : Option String) (search : List Node → List Node)
    (keeps : Node → Bool) : Walker :=
  match walker.operands with
  | none :: rest =>
    { walker with operands := some (.nodes none member (search walker.nodes)) :: rest }
  | some (.nodes origin asked found) :: rest =>
    let values := match asked with
      | some name => found.map fun node => (node.member? name).getD node
      | none => found
    let kept := (found.zip values).filterMap fun (node, value) =>
      if keeps value then some node else none
    { walker with
      operands := some (.nodes (some (origin.getD kept)) member (search values)) :: rest }
  | _ :: rest => { walker with operands := rest }
  | [] => walker

def filteredByName (walker : Walker) (name : String) : Walker :=
  walker.filtered (some name)
    (fun nodes => distinctPlaces (nodes.flatMap fun node => holders name node.trail node.value))
    (fun node => (node.member? name).isSome)

/-- A name after a move, or a text inside brackets. -/
def name (walker : Walker) (text : String) : Walker :=
  match walker.marks with
  | [] => walker
  | .bracket :: _ => { walker with operands := some (.text text) :: walker.operands }
  | mark :: marks =>
    let walker := { walker with marks := marks }
    match mark, walker.operands.isEmpty with
    | .descend, true => { walker with nodes := namedBelow text walker.nodes }
    | .descend, false => walker.filtered none (holdersBelow text) (fun _ => true)
    | _, true => walker.narrowed (walker.nodes.filterMap (Node.member? text))
    | _, false => walker.filteredByName text

def names (walker : Walker) (texts : List String) : Walker :=
  { walker with marks := walker.marks.tail }.narrowed
    (walker.nodes.flatMap fun (node : Node) => texts.filterMap fun text => node.member? text)

/-- A star after a move or inside brackets. -/
def all (walker : Walker) : Walker :=
  let marks := match walker.marks with
    | .bracket :: rest => rest
    | marks => marks
  match marks with
  | .descend :: rest => { walker with marks := rest, nodes := allBelow walker.nodes }
  | .into :: rest => { walker with marks := rest, nodes := walker.nodes.flatMap Node.children }
  | marks => { walker with marks := marks, nodes := walker.nodes.flatMap Node.children }

/-- The tested values of a filter become an operand; after a descent they are all descendants. -/
def here (walker : Walker) : Walker :=
  let walker := match walker.marks with
    | .bracket :: .descend :: rest =>
      { walker with marks := .bracket :: rest, nodes := allBelow walker.nodes }
    | _ => walker
  { walker with operands := none :: walker.operands }

/-- The nodes that the operand of closed brackets leaves. -/
def subscripted (walker : Walker) : Operand → Walker
  | .number position =>
    walker.narrowed (walker.nodes.flatMap (itemsOf (clampToSigned position.truncate)))
  | .text text => walker.narrowed (walker.nodes.filterMap (Node.member? text))
  | .nodes origin _ found =>
    { walker with nodes := if found.isEmpty then [] else origin.getD found }
  | .truth false => { walker with nodes := [] }
  | .truth true => walker

/-- Closing brackets that follow neither a descent nor other brackets. -/
def closePlain (walker : Walker) : Walker :=
  match walker.operands with
  | some operand :: rest =>
    let walker := { walker with operands := rest }.subscripted operand
    { walker with marks := walker.marks.tail }
  | operands => { walker with operands := operands.tail, marks := walker.marks.tail }

def close (walker : Walker) : Walker :=
  match walker.marks, walker.operands with
  | .bracket :: .bracket :: marks, some (.text text) :: rest =>
    { walker with marks := .bracket :: marks, operands := rest }.filteredByName text
  | _ :: .descend :: marks, some (.number position) :: rest =>
    { walker with
      marks := marks
      operands := rest.tail
      nodes := itemsBelow (clampToSigned position.truncate) walker.nodes }
  | _ :: .descend :: marks, some (.text text) :: rest =>
    { walker with marks := marks, operands := rest.tail, nodes := namedBelow text walker.nodes }
  | _ :: .descend :: marks, _ => { walker with marks := marks }.closePlain
  | _, _ => walker.closePlain

def relate (walker : Walker) (relation : Relation) : Walker :=
  let tested : Operand := .nodes none none walker.nodes
  match walker.operands with
  | right :: left :: rest =>
    { walker with
      operands := some ((left.getD tested).related relation (right.getD tested)) :: rest }
  | _ => walker

/-- Any instruction that does not change between walkers. -/
def run (walker : Walker) : Instruction → Walker
  | .into => { walker with marks := .into :: walker.marks }
  | .descend => { walker with marks := .descend :: walker.marks }
  | .bracket => { walker with marks := .bracket :: walker.marks }
  | .close => walker.close
  | .all => walker.all
  | .name text => walker.name text
  | .names texts => walker.names texts
  | .number value => { walker with operands := some (.number value) :: walker.operands }
  | .truth value => { walker with operands := some (.truth value) :: walker.operands }
  | .slice start stop stride =>
    { walker with
      marks := walker.marks.tail
      nodes := walker.nodes.flatMap (sliceOf start stop stride) }
  | .union positions =>
    { walker with
      marks := walker.marks.tail
      nodes := walker.nodes.flatMap fun (node : Node) => positions.filterMap fun n => node.item? n }
  | .here => walker.here
  | .relate relation => walker.relate relation
  | .root => walker
  | .endOperand => walker

end Walker

/-- The walker of a query and, inside a filter, that of a path from the root. -/
structure Machine where
  document : Json
  main : Walker
  side : Option Walker

namespace Machine

def atRoot (document : Json) : Walker := ⟨[⟨[], document⟩], [], []⟩

/-- The operand that a path from the root amounts to: a scalar when it finds just one. -/
def sideOperand (nodes : List Node) : Operand :=
  match nodes with
  | [⟨_, .number n⟩] => .number n.toBinary64
  | [⟨_, .string s⟩] => .text s
  | [⟨_, .bool b⟩] => .truth b
  | _ => .nodes none none nodes

/-- Ends a path from the root: what it found becomes an operand. -/
def settle (machine : Machine) : Machine :=
  match machine.side with
  | none => machine
  | some side =>
    let operands := some (sideOperand side.nodes) :: machine.main.operands
    { machine with main := { machine.main with operands := operands }, side := none }

def step (machine : Machine) (instruction : Instruction) : Machine :=
  match instruction with
  | .root => { machine.settle with side := some (atRoot machine.document) }
  | .endOperand => machine.settle
  | .here | .relate _ =>
    let machine := machine.settle
    { machine with main := machine.main.run instruction }
  | _ =>
    match machine.side with
    | some side => { machine with side := some (side.run instruction) }
    | none => { machine with main := machine.main.run instruction }

end Machine

/-- The nodes that a program matches in a document. -/
def run (program : Program) (document : Json) : List Node :=
  (program.foldl Machine.step ⟨document, Machine.atRoot document, none⟩).main.nodes

/-- The values that a program matches in a document. -/
def select (program : Program) (document : Json) : List Json :=
  (run program document).map Node.value

end JsonPath

end RecordMapping

import RecordMapping.Definition.Datum
import RecordMapping.Definition.Shape
import RecordMapping.Dictionary
import RecordMapping.Number.Numeral

/-!
# Reading definitions

The building blocks of all readers of definitions. A reader takes a datum and gives a value or a
fault. The members of a structure are read in the order in which they are written; unknown ones are
ignored, and missing ones are looked at afterwards in the order of their declaration. A sequence
writes the members of a structure without their names.

Members that were kept aside while the kind of their structure was looked for are read a little more
freely: a number may stand for a name, and an empty mapping for null.
-/

namespace RecordMapping

abbrev Decoded (α : Type) : Type := Except DefinitionFault α

namespace Decode

variable {α β : Type}

def expected (what : String) (datum : Datum) : Decoded α := .error (.wrongType datum.found what)

def text : Datum → Decoded String
  | .string s => .ok s
  | datum => expected "a string" datum

def bool : Datum → Decoded Bool
  | .bool b => .ok b
  | datum => expected "a boolean" datum

def integerIn (low high : Int) (what : String) : Datum → Decoded Int
  | .number (.integer n _) =>
    if low ≤ n ∧ n ≤ high then .ok n else .error (.wrongValue (.integer n) what)
  | datum => expected what datum

/-- A signed 64-bit word. -/
def signed (datum : Datum) : Decoded Int := integerIn (-signedEnd) (signedEnd - 1) "i64" datum

/-- A count: an unsigned 64-bit word. -/
def count (datum : Datum) : Decoded Nat :=
  (integerIn 0 (wordEnd - 1) "usize" datum).map Int.toNat

def cardinality (datum : Datum) : Decoded Cardinality :=
  match signed datum with
  | .error fault => .error fault
  | .ok n =>
    match Cardinality.ofInt? n with
    | some c => .ok c
    | none => .error (.cardinality n)

def value (datum : Datum) : Decoded Json := .ok datum.toJson

/-- Null, or what a reader takes. -/
def optional (read : Datum → Decoded α) : Datum → Decoded (Option α)
  | .null => .ok none
  | datum => (read datum).map some

/-- The results of a reader on every item. -/
def each (read : Datum → Decoded α) : List Datum → Decoded (List α)
  | [] => .ok []
  | datum :: rest =>
    match read datum with
    | .error fault => .error fault
    | .ok first =>
      match each read rest with
      | .error fault => .error fault
      | .ok others => .ok (first :: others)

def sequence (read : Datum → Decoded α) : Datum → Decoded (List α)
  | .sequence items => each read items
  | datum => expected "a sequence" datum

/-- The results of a reader on the values of all entries, under their names. -/
def eachEntry (read : Datum → Decoded α) :
    List (Datum × Datum) → Decoded (List (String × α))
  | [] => .ok []
  | (key, datum) :: rest =>
    match text key, read datum with
    | .error fault, _ => .error fault
    | _, .error fault => .error fault
    | .ok name, .ok first =>
      match eachEntry read rest with
      | .error fault => .error fault
      | .ok others => .ok ((name, first) :: others)

/-- A mapping of names to what a reader takes; of repeated names the last one counts. -/
def dictionary (read : Datum → Decoded α) : Datum → Decoded (Dictionary α)
  | .mapping entries => (eachEntry read entries).map Dictionary.ofList
  | datum => expected "a map" datum

/-- The key of a mapping as one of several names, which a number stands for by its place. -/
def named (names : List String) : Datum → Decoded (Option String)
  | .string name => .ok (some name)
  | .number (.integer n fits) =>
    if n < 0 then expected "field identifier" (.number (.integer n fits)) else .ok names[n.toNat]?
  | key => expected "field identifier" key

/-- Entries under their names, without those that have none. -/
def namedEntries (names : List String) :
    List (Datum × Datum) → Decoded (List (String × Datum))
  | [] => .ok []
  | (key, datum) :: rest =>
    match named names key, namedEntries names rest with
    | .error fault, _ => .error fault
    | _, .error fault => .error fault
    | .ok none, .ok others => .ok others
    | .ok (some name), .ok others => .ok ((name, datum) :: others)

def unit (kept : Bool) : Datum → Decoded Unit
  | .null => .ok ()
  | .mapping [] => if kept then .ok () else expected "unit" (.mapping [])
  | datum => expected "unit" datum

def variantOf (known : List (String × α)) (name : String) : Decoded α :=
  match known.lookup name with
  | some v => .ok v
  | none => .error (.unknownVariant name (known.map Prod.fst))

/-- One of several named variants: its name, or a mapping of its name to nothing. -/
def variant (kept : Bool) (known : List (String × α)) : Datum → Decoded α
  | .string name => variantOf known name
  | .mapping [(key, content)] =>
    match named (known.map Prod.fst) key with
    | .error fault => .error fault
    | .ok none => expected "variant identifier" key
    | .ok (some name) =>
      match variantOf known name with
      | .error fault => .error fault
      | .ok v => (unit kept content).map fun _ => v
  | .mapping _ => .error (.wrongValue .mapping "map with a single key")
  | datum => expected "string or map" datum

/-- Puts the members of a structure into a draft of it, one after the other. A member that the draft
knows must not be repeated. -/
def fill (put : α → String → Datum → Decoded (Option α)) :
    List String → List (String × Datum) → α → Decoded α
  | _, [], draft => .ok draft
  | seen, (name, datum) :: rest, draft =>
    if seen.contains name then .error (.duplicateField name)
    else match put draft name datum with
      | .error fault => .error fault
      | .ok none => fill put seen rest draft
      | .ok (some draft) => fill put (name :: seen) rest draft

structure MemberRule where
  name : String
  required : Bool
  shape : Shape

/-- The members of a structure in the order of their declaration. -/
abbrev Members : Type := List MemberRule

namespace Members

def names (members : Members) : List String := members.map MemberRule.name

def shape (members : Members) : Shape :=
  .record (members.map fun member => (member.name, member.shape))

end Members

/-- What a structure is called when it was expected. -/
def structureName (name : String) : String := "struct " ++ name

def elements (count : Nat) : String := s!"{count} " ++ if count = 1 then "element" else "elements"

/-- Why a sequence of so many items is no structure, if it is none: it has too many items, or no
item for a member that has to be there. -/
def lengthFault? (kept : Bool) (name : String) (members : Members) (length : Nat) :
    Option DefinitionFault :=
  let count := members.length
  if count < length then
    some (.wrongLength length
      (if kept then elements count ++ " in sequence" else "fewer elements in array"))
  else ((members.drop length).findIdx? MemberRule.required).map fun index =>
    .wrongLength (length + index) (structureName name ++ " with " ++ elements count)

/-- Reads the members of a structure into a draft of it. A sequence holds them in the order of their
declaration. -/
def draft (kept : Bool) (name : String) (members : Members)
    (put : α → String → Datum → Decoded (Option α)) (start : α) : Datum → Decoded α
  | .sequence items =>
    match fill put [] (members.names.zip items) start with
    | .error fault => .error fault
    | .ok filled =>
      match lengthFault? kept name members items.length with
      | some fault => .error fault
      | none => .ok filled
  | .mapping entries =>
    match namedEntries members.names entries with
    | .error fault => .error fault
    | .ok found => fill put [] found start
  | datum => expected (structureName name) datum

def required (name : String) : Option α → Decoded α
  | some v => .ok v
  | none => .error (.missingField name)

end Decode

end RecordMapping

import RecordMapping.Definition.Fault

/-!
# Data that define something

Definitions are written in JSON or YAML. A datum is what both come to. The keys of a mapping may be
any data, and repeated ones are kept; a JSON object comes to a mapping of texts.
-/

namespace RecordMapping

/-- A part of a definition. Infinities, and what is no number at all, are known by their names. -/
inductive Datum where
  | null
  | bool (value : Bool)
  | number (value : Number)
  | notFinite (name : String)
  | string (value : String)
  | sequence (items : List Datum)
  | mapping (entries : List (Datum × Datum))

namespace Datum

mutual

def ofJson : Json → Datum
  | .null => .null
  | .bool b => .bool b
  | .number n => .number n
  | .string s => .string s
  | .list items => .sequence (ofItems items)
  | .object members => .mapping (ofMembers members)
termination_by structural value => value

def ofItems : List Json → List Datum
  | [] => []
  | item :: rest => ofJson item :: ofItems rest
termination_by structural items => items

def ofMembers : List (String × Json) → List (Datum × Datum)
  | [] => []
  | (name, value) :: rest => (.string name, ofJson value) :: ofMembers rest
termination_by structural members => members

end

/-- A key as the name of a member: a text itself, anything else by its compact text. -/
def keyName : Json → String
  | .string s => s
  | key => String.ofList key.compact

mutual

/-- The document that a datum shows. What is not finite shows as null. -/
def toJson : Datum → Json
  | .null => .null
  | .bool b => .bool b
  | .number n => .number n
  | .notFinite _ => .null
  | .string s => .string s
  | .sequence items => .list (toItems items)
  | .mapping entries =>
    .object ((toMembers entries).foldl (fun members entry => putMember entry.1 entry.2 members) [])
termination_by structural datum => datum

/-- The documents that the items of a sequence show. -/
def toItems : List Datum → List Json
  | [] => []
  | item :: rest => item.toJson :: toItems rest
termination_by structural items => items

/-- The members that the entries of a mapping show. -/
def toMembers : List (Datum × Datum) → List (String × Json)
  | [] => []
  | (key, value) :: rest => (keyName key.toJson, value.toJson) :: toMembers rest
termination_by structural entries => entries

end

mutual

/-- Equality of data: numbers by `Number.same`, mappings whatever the order of their entries. -/
def same : Datum → Datum → Bool
  | .null, .null => true
  | .bool a, .bool b => a == b
  | .number a, .number b => a.same b
  | .notFinite a, .notFinite b => a == b
  | .string a, .string b => a == b
  | .sequence as, .sequence bs => sameItems as bs
  | .mapping as, .mapping bs => as.length == bs.length && sameEntries as bs
  | _, _ => false
termination_by structural datum => datum

def sameItems : List Datum → List Datum → Bool
  | [], [] => true
  | a :: as, b :: bs => a.same b && sameItems as bs
  | _, _ => false
termination_by structural items => items

def sameEntries : List (Datum × Datum) → List (Datum × Datum) → Bool
  | [], _ => true
  | (key, value) :: rest, others =>
    (others.any fun other => key.same other.1 && value.same other.2) && sameEntries rest others
termination_by structural entries => entries

end

def isText (text : String) : Datum → Bool
  | .string s => s == text
  | _ => false

def distinctKeys : List (Datum × Datum) → Bool
  | [] => true
  | (key, _) :: rest => !(rest.any fun entry => key.same entry.1) && distinctKeys rest

/-- What a number is called when it was not expected. -/
def foundNumber : Number → Found
  | .integer n _ => .integer n
  | .float x => .float x

/-- What a datum is called when it was not expected. -/
def found : Datum → Found
  | .null => .null
  | .bool b => .boolean b
  | .number n => foundNumber n
  | .notFinite name => .notFinite name
  | .string s => .text s
  | .sequence _ => .sequence
  | .mapping _ => .mapping

end Datum

end RecordMapping

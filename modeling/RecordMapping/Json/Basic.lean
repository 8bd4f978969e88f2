import RecordMapping.Number.Basic

/-!
# Raw documents

A document is a tree of null, booleans, numbers, strings, lists and objects. An object is a list of
members in the order in which they were first written; overwriting a member keeps its place.
-/

namespace RecordMapping

/-- A document or a part of one. -/
inductive Json where
  | null
  | bool (value : Bool)
  | number (value : Number)
  | string (value : String)
  | list (items : List Json)
  | object (members : List (String × Json))
  deriving Inhabited

abbrev Member : Type := String × Json

/-- The kinds of values, as messages name them. -/
inductive Kind where
  | null
  | boolean
  | number
  | string
  | list
  | object
  deriving DecidableEq

namespace Kind

def describe : Kind → String
  | .null => "null"
  | .boolean => "a boolean"
  | .number => "a number"
  | .string => "a string"
  | .list => "a list"
  | .object => "an object"

def isContainer : Kind → Bool
  | .list => true
  | .object => true
  | _ => false

end Kind

/-- The members with one value written under a name: in place when the name is there, else last. -/
def putMember (name : String) (value : Json) : List Member → List Member
  | [] => [(name, value)]
  | (key, old) :: rest =>
    if key = name then (key, value) :: rest else (key, old) :: putMember name value rest

def findMember (name : String) : List Member → Option Json
  | [] => none
  | (key, value) :: rest => if key = name then some value else findMember name rest

namespace Json

def kind : Json → Kind
  | .null => .null
  | .bool _ => .boolean
  | .number _ => .number
  | .string _ => .string
  | .list _ => .list
  | .object _ => .object

def isNull : Json → Bool
  | .null => true
  | _ => false

def isContainer (value : Json) : Bool := value.kind.isContainer

/-- The member of an object; other values have none. -/
def member? (name : String) : Json → Option Json
  | .object members => findMember name members
  | _ => none

def ofInt (n : Int) : Json := .number (.ofInt n)

mutual

/-- Equality of values: numbers by `Number.same`, objects whatever the order of their members. -/
def same : Json → Json → Bool
  | .null, .null => true
  | .bool a, .bool b => a == b
  | .number a, .number b => a.same b
  | .string a, .string b => a == b
  | .list as, .list bs => sameItems as bs
  | .object as, .object bs => as.length == bs.length && sameMembers as bs
  | _, _ => false
termination_by structural value => value

def sameItems : List Json → List Json → Bool
  | [], [] => true
  | a :: as, b :: bs => a.same b && sameItems as bs
  | _, _ => false
termination_by structural items => items

/-- Whether every member occurs with an equal value among the others. -/
def sameMembers : List (String × Json) → List (String × Json) → Bool
  | [], _ => true
  | (name, a) :: as, bs =>
    (match findMember name bs with
      | some b => a.same b
      | none => false) && sameMembers as bs
termination_by structural members => members

end

/-- The text by which a record or a reference is identified: a non-empty string, or a number. -/
def identifier? : Json → Option String
  | .string s => if s.isEmpty then none else some s
  | .number n => some (String.ofList n.text)
  | _ => none

def isEmptyReference : Json → Bool
  | .null => true
  | .string s => s.isEmpty
  | _ => false

end Json

end RecordMapping

import RecordMapping.Json.Printer
import RecordMapping.Document.Path

/-!
# Queries over records

A query keeps the records that pass all filters, orders them by its sort keys and cuts out a page.
Two values are loosely equal if they are equal or are written alike as identifiers, so `7` and `"7"`
are.
-/

namespace RecordMapping

namespace Json

/-- Equality that also holds between identifiers of one text. -/
def looselyEqual (a b : Json) : Bool :=
  same a b ||
    match a.identifier?, b.identifier? with
    | some s, some t => s == t
    | _, _ => false

end Json

def occursIn (part : List Char) : List Char → Bool
  | [] => part.isEmpty
  | c :: text => part.isPrefixOf (c :: text) || occursIn part text

/-- How a filter compares. -/
inductive Comparison where
  | equal
  | notEqual
  | contains
  deriving DecidableEq

/-- A condition on the value at a slash-separated path. -/
structure RecordFilter where
  field : String
  comparison : Comparison
  value : Json

namespace RecordFilter

/-- The condition that a value is loosely equal to another. -/
def equal (field : String) (value : Json) : RecordFilter := ⟨field, .equal, value⟩

def admits (filter : RecordFilter) (record : Json) : Bool :=
  let found := Json.find? (stepsOf filter.field) record
  match filter.comparison with
  | .equal => found.any fun value => value.looselyEqual filter.value
  | .notEqual => !found.any fun value => value.looselyEqual filter.value
  | .contains =>
    match found, filter.value with
    | some (.string text), .string part => occursIn part.toList text.toList
    | some (.list items), value => items.any fun item => item.looselyEqual value
    | _, _ => false

end RecordFilter

/-- A key to sort by: the value at a slash-separated path. -/
structure SortKey where
  field : String
  descending : Bool
  deriving DecidableEq

/-- The order of found values: missing ones first, numbers by their size, strings by code points and
all else by the compact text. -/
def compareFound : Option Json → Option Json → Ordering
  | none, none => .eq
  | none, some _ => .lt
  | some _, none => .gt
  | some (.number a), some (.number b) => a.toBinary64.compare b.toBinary64
  | some (.string a), some (.string b) => compareOfLessAndEq a b
  | some a, some b => compareOfLessAndEq a.toText b.toText

namespace SortKey

def compare (key : SortKey) (a b : Json) : Ordering :=
  let steps := stepsOf key.field
  let order := compareFound (Json.find? steps a) (Json.find? steps b)
  if key.descending then order.swap else order

end SortKey

/-- The order of two records by several keys, the most significant one first. -/
def compareBy : List SortKey → Json → Json → Ordering
  | [], _, _ => .eq
  | key :: rest, a, b => (key.compare a b).then (compareBy rest a b)

structure RecordQuery where
  filters : List RecordFilter
  sort : List SortKey
  offset : Nat
  limit : Option Nat

namespace RecordQuery

def all : RecordQuery := ⟨[], [], 0, none⟩

def page (offset : Nat) (limit : Option Nat) : RecordQuery := ⟨[], [], offset, limit⟩

def admits (filters : List RecordFilter) (record : Json) : Bool :=
  filters.all fun filter => filter.admits record

/-- The records that a query finds. Records of equal keys keep their order. -/
def apply (query : RecordQuery) (records : List Json) : List Json :=
  let matched := records.filter (admits query.filters)
  let ordered := matched.mergeSort fun a b => (compareBy query.sort a b).isLE
  let rest := ordered.drop query.offset
  match query.limit with
  | none => rest
  | some limit => rest.take limit

end RecordQuery

end RecordMapping

import RecordMapping.Dictionary
import RecordMapping.Dialect

namespace RecordMapping

abbrev PropertyMappings : Type := Dictionary String

abbrev MappingTable : Type := Dictionary PropertyMappings

namespace MappingTable

def set (field property expression : String) (table : MappingTable) : MappingTable :=
  let mappings : PropertyMappings := (Dictionary.find? field table).getD .empty
  Dictionary.insert field (Dictionary.insert property expression mappings) table

def field? (field : String) (table : MappingTable) : Option PropertyMappings :=
  (Dictionary.find? field table).filter fun mappings => !Dictionary.isEmpty mappings

def property? (field property : String) (table : MappingTable) : Option String :=
  (Dictionary.find? field table).bind (Dictionary.find? property)

/-- The table without blank expressions and then without fields that have none. -/
def withoutBlanks (table : MappingTable) : MappingTable :=
  let kept : MappingTable := Dictionary.map
    (fun _ mappings => Dictionary.filter (fun _ e => !isAllBlank e.toList) mappings) table
  Dictionary.filter (fun _ mappings => !Dictionary.isEmpty mappings) kept

end MappingTable

inductive MappingSource where
  | constant (text : String)
  | path (expression : String)
  deriving DecidableEq

namespace MappingSource

/-- Whether an expression starts with a mark; the text after it. -/
def afterMark? : List Char → List Char → Option (List Char)
  | [], text => some text
  | _ :: _, [] => none
  | c :: mark, d :: text => if c = d then afterMark? mark text else none

/-- Tells constants from paths. Without a mark, or with an empty one, all are paths. -/
def classify (mark : Option String) (expression : String) : MappingSource :=
  match mark with
  | none => .path expression
  | some mark =>
    if mark.isEmpty then .path expression
    else match afterMark? mark.toList expression.toList with
      | some text => .constant (String.ofList text)
      | none => .path expression

def isConstant : MappingSource → Bool
  | .constant _ => true
  | .path _ => false

end MappingSource

structure MapperConfig where
  dialect : Dialect
  constantMark : Option String
  mappings : MappingTable
  deriving DecidableEq

namespace MapperConfig

def defaultMark : Option String := some "+"

end MapperConfig

end RecordMapping

import RecordMapping.Json.Printer
import RecordMapping.Json.Reader
import RecordMapping.Text.Blank
import RecordMapping.Text.Pieces

namespace RecordMapping

/-- How records are laid out in a file. -/
inductive RecordFormat where
  | list
  | lines
  deriving DecidableEq

/-- Why a text is no text of records. The number of a line counts from one. -/
inductive RecordTextFault where
  | notList
  | badText
  | badLine (number : Nat)
  deriving DecidableEq

namespace RecordTextFault

def message : RecordTextFault → String
  | .notList => "expected a JSON array of records"
  | .badText => "<json error>"
  | .badLine number => s!"line {number}: <json error>"

end RecordTextFault

/-- The values of lines that are not blank, or the number of the first line that holds none. -/
def readLines : Nat → List (List Char) → Except Nat (List Json)
  | _, [] => .ok []
  | number, line :: rest =>
    if isAllBlank line then readLines (number + 1) rest
    else match Json.read? line with
      | none => .error number
      | some record =>
        match readLines (number + 1) rest with
        | .ok records => .ok (record :: records)
        | .error bad => .error bad

namespace RecordFormat

def id : RecordFormat → String
  | .list => "json"
  | .lines => "jsonl"

def ofExtension : Option String → RecordFormat
  | some "jsonl" => .lines
  | some "ndjson" => .lines
  | _ => .list

def read (format : RecordFormat) (text : List Char) : Except RecordTextFault (List Json) :=
  match format with
  | .list =>
    if isAllBlank text then .ok []
    else match Json.read? text with
      | none => .error .badText
      | some (.list records) => .ok records
      | some _ => .error .notList
  | .lines =>
    match readLines 1 (RecordMapping.lines text) with
    | .ok records => .ok records
    | .error number => .error (.badLine number)

def write (format : RecordFormat) (records : List Json) : List Char :=
  match format with
  | .list => (Json.list records).pretty ++ ['\n']
  | .lines => joinPieces ['\n'] (records.map Json.compact) ++ ['\n']

end RecordFormat

end RecordMapping

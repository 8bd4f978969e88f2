import RecordMapping.Schema.Catalog
import RecordMapping.Calendar.Reading
import RecordMapping.Json.Printer

/-!
# Normal forms of property values

A raw value is brought into the form that the kind of its property calls for. What cannot be brought
into it becomes null. References and structured values stay as they are.
-/

namespace RecordMapping

namespace Normalize

/-- Seconds since 1970 that a text gives: an integer, a number without its fraction, or a date. -/
def textTimestamp? (text : String) : Option Int :=
  let text := trim text.toList
  (Numeral.integer? text).or <|
    ((Numeral.float? text).map fun x => clampToSigned x.truncate).or <|
      (Calendar.instant? text).map Instant.seconds

/-- Seconds since 1970 that a value gives. -/
def timestamp? : Json → Option Int
  | .number n => some n.toSigned
  | .string s => textTimestamp? s
  | _ => none

/-- The text of a value: strings stay, truth values are digits, the rest is written out. -/
def toText : Json → String
  | .string s => s
  | .bool true => "1"
  | .bool false => "0"
  | .null => ""
  | value => value.toText

/-- The integer of a value, clamped to a signed word. -/
def toInteger? : Json → Option Int
  | .number n => some n.toSigned
  | .bool b => some (if b then 1 else 0)
  | .string s =>
    let text := trim s.toList
    (Numeral.integer? text).or ((Numeral.float? text).map fun x => clampToSigned x.truncate)
  | _ => none

def toFloat? : Json → Option Binary64
  | .number n => some n.toBinary64
  | .bool b => some (.ofInt (if b then 1 else 0))
  | .string s => Numeral.float? (trim s.toList)
  | _ => none

/-- Zero, the empty string, `"0"`, the empty list and null are false. -/
def isTruthy : Json → Bool
  | .null => false
  | .bool b => b
  | .number n => !n.toBinary64.isZero
  | .string s => !(s.isEmpty || s == "0")
  | .list items => !items.isEmpty
  | .object _ => true

/-- The value of a scalar type that a value stands for. -/
def primitive? (primitive : Primitive) (value : Json) : Option Json :=
  match primitive with
  | .string | .uri => some (.string (toText value))
  | .integer => (toInteger? value).map Json.ofInt
  | .float => (toFloat? value).map fun x => .number (.float x)
  | .boolean => some (.bool (isTruthy value))

/-- The text of a second in a stored form, if its date is in range. -/
def dateText? (form : DateForm) (seconds : Int) : Option String :=
  if Instant.inRange seconds then
    some <| String.ofList <| match form with
      | .date => Instant.secondsDateText seconds
      | .datetime => Instant.secondsText seconds
  else none

end Normalize

def normalize (kind : PropertyKind) (form : DateForm) (value : Json) : Json :=
  match value, kind with
  | .null, _ => .null
  | value, .primitive primitive => (Normalize.primitive? primitive value).getD .null
  | value, .dateTime =>
    (((Normalize.timestamp? value).bind (Normalize.dateText? form)).map Json.string).getD .null
  | value, .timestamp => ((Normalize.timestamp? value).map Json.ofInt).getD .null
  | value, .reference => value
  | value, .complex => value

end RecordMapping

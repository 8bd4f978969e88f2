namespace RecordMapping

/-- How important an event is. -/
inductive Severity where
  | info
  | warning
  | error
  deriving DecidableEq

namespace Severity

def name : Severity → String
  | .info => "INFO"
  | .warning => "WARN"
  | .error => "ERROR"

end Severity

structure Event where
  severity : Severity
  message : String
  values : List (String × String)
  deriving DecidableEq

namespace Event

def info (message : String) : Event := ⟨.info, message, []⟩

/-- A character of a message in a log. Those that could control a terminal are written by their
codes; other control characters, such as line breaks, are kept. -/
def loggedChar (c : Char) : List Char :=
  let n := c.toNat
  let code := Nat.toDigits 16 n
  if n = 0x1B ∨ n = 0x7F then '\\' :: 'x' :: code
  else if n = 0x07 ∨ n = 0x08 ∨ n = 0x0C then '\\' :: 'x' :: '0' :: code
  else if 0x80 ≤ n ∧ n ≤ 0x9F then '\\' :: 'u' :: '\x7b' :: (code ++ ['\x7d'])
  else [c]

def loggedText (message : String) : String := String.ofList (message.toList.flatMap loggedChar)

def line (event : Event) : String :=
  event.severity.name ++ " " ++ loggedText event.message ++
    String.join (event.values.map fun value => s!" {value.1}={value.2}")

end Event

structure Report where
  output : List String
  log : List Event
  failure : Option (List String)
  deriving DecidableEq

namespace Report

/-- The report of a command that stopped at an error, after some events. -/
def failed (log : List Event) (causes : List String) : Report := ⟨[], log, some causes⟩

def done (output : List String) (log : List Event) : Report := ⟨output, log, none⟩

/-- The output as text; every line is ended. -/
def outputText (report : Report) : String :=
  String.join (report.output.map fun line => line ++ "\n")

def code (report : Report) : Nat := if report.failure.isSome then 1 else 0

end Report

end RecordMapping

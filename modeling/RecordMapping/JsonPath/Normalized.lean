import RecordMapping.Plan.Basic
import RecordMapping.Text.Blank

/-!
# Normalized path queries

The queries that can be written through: `$` followed by `.name`, `.*`, `[n]`, `[*]`, `['text']` and
`["text"]`. Each step takes at least one character, so the steps of a text are read with its length
as bound. Main functions: `Normalized.plan?` reads a query and `Normalized.render` writes one.
-/

namespace RecordMapping

namespace Normalized

def isNameChar (c : Char) : Bool := c != '.' && c != '['

/-- What stands unquoted in brackets: a star or a position, with blanks around. -/
def subscript? (inner : List Char) : Option Segment :=
  let inner := trim inner
  if inner = ['*'] then some .wildcard
  else (Numeral.word? inner).map fun position => .step (.index position)

/-- The step after an opening bracket, and what follows it. -/
def bracketed? : List Char → Option (Segment × List Char)
  | [] => none
  | c :: rest =>
    if c = '\'' ∨ c = '"' then
      match rest.dropWhile (· ≠ c) with
      | _ :: ']' :: after =>
        some (.step (.key (String.ofList (rest.takeWhile (· ≠ c)))), after)
      | _ => none
    else
      match (c :: rest).dropWhile (· ≠ ']') with
      | [] => none
      | _ :: after => (subscript? ((c :: rest).takeWhile (· ≠ ']'))).map (·, after)

/-- The step at the start of a text, and what follows it. -/
def step? : List Char → Option (Segment × List Char)
  | '.' :: '*' :: rest => some (.wildcard, rest)
  | '.' :: rest =>
    let name := rest.takeWhile isNameChar
    if name.isEmpty then none
    else some (.step (.key (String.ofList name)), rest.dropWhile isNameChar)
  | '[' :: rest => bracketed? rest
  | _ => none

/-- The steps of a text, at most as many as the first argument. -/
def stepsUpTo? : Nat → List Char → Option Plan
  | _, [] => some []
  | 0, _ :: _ => none
  | fuel + 1, c :: rest =>
    match step? (c :: rest) with
    | none => none
    | some (segment, after) => (stepsUpTo? fuel after).map (segment :: ·)

def plan? : List Char → Option Plan
  | '$' :: rest => stepsUpTo? rest.length rest
  | _ => none

def segmentText : Segment → List Char
  | .wildcard => ['[', '*', ']']
  | .step (.index position) => '[' :: (Nat.toDigits 10 position ++ [']'])
  | .step (.key name) => '[' :: '\'' :: (name.toList ++ ['\'', ']'])

/-- The query of a plan, with every segment in brackets. -/
def render (plan : Plan) : List Char := '$' :: plan.flatMap segmentText

end Normalized

end RecordMapping

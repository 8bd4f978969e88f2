import RecordMapping.JsonPath.Token
import RecordMapping.Number.Numeral

/-!
# Path queries as programs

Reading a query produces the instructions of a small stack machine, in the order in which they run:
a step first says how it moves (`into` a child, `descend` to all descendants, `bracket`) and then
what it looks for. The operands of a relation come before it. Reading starts at `$` and stops at the
first token that continues no step; a step that has begun must be complete.
-/

namespace RecordMapping

namespace JsonPath

inductive Instruction where
  | root
  | here
  | into
  | descend
  | bracket
  | close
  | all
  | name (text : String)
  | names (texts : List String)
  | number (value : Binary64)
  | truth (value : Bool)
  | slice (start stop : Option Int) (stride : Option Nat)
  | union (positions : List Int)
  | endOperand
  | relate (relation : Relation)
  deriving DecidableEq

/-- The instructions of a query in running order. -/
abbrev Program : Type := List Instruction

abbrev Reading : Type := Option (Program × List Token)

def skipBlanks (tokens : List Token) : List Token := tokens.dropWhile (· == .blank)

def expect? (token : Token) : List Token → Option (List Token)
  | [] => none
  | t :: rest => if t = token then some rest else none

def closedBy? (token : Token) (reading : Reading) : Reading :=
  reading.bind fun (program, rest) =>
    (expect? token (skipBlanks rest)).map fun after => (program, after)

/-- The stride after a second colon, if there is one. -/
def readStride? (tokens : List Token) : Option (Option Nat × List Token) :=
  match skipBlanks tokens with
  | .colon :: rest =>
    match skipBlanks rest with
    | .word text :: after => (Numeral.count? text).map fun n => (some n, after)
    | other => some (none, other)
  | other => some (none, other)

def readSliceFrom? (start : Int) (tokens : List Token) : Reading :=
  match skipBlanks tokens with
  | .word text :: rest => do
    let stop ← Numeral.integer? text
    let (stride, rest) ← readStride? rest
    return ([.slice (some start) (some stop) stride], rest)
  | .colon :: rest => do
    let (stride, rest) ← readStride? (.colon :: rest)
    return ([.slice (some start) none stride], rest)
  | rest => some ([.slice (some start) none none], rest)

/-- A slice without start, after its first colon. -/
def readSliceTo? (tokens : List Token) : Reading := do
  let (stride, rest) ← readStride? tokens
  match stride with
  | some n => return ([.slice none none (some n)], rest)
  | none =>
    match rest with
    | .closeBracket :: _ => return ([.slice none none none], rest)
    | .word text :: rest =>
      let stop ← Numeral.integer? text
      let (stride, rest) ← readStride? rest
      return ([.slice none (some stop) stride], rest)
    | _ => none

/-- The positions of a union after its first one; blanks may follow a comma only. -/
def readUnion? (positions : List Int) : Nat → List Token → Reading
  | 0, _ => none
  | fuel + 1, tokens =>
    match tokens with
    | .comma :: rest =>
      match skipBlanks rest with
      | .word text :: after => do
        readUnion? (positions ++ [← Numeral.integer? text]) fuel after
      | _ => none
    | _ => some ([.union positions], tokens)

def readNames? (names : List String) : Nat → List Token → Reading
  | 0, _ => none
  | fuel + 1, tokens =>
    match tokens with
    | .comma :: rest =>
      match skipBlanks rest with
      | .quoted text :: after =>
        readNames? (names ++ [String.ofList text]) fuel (skipBlanks after)
      | _ => none
    | _ => some ([.names names], tokens)

/-- One quoted name, or several after each other. -/
def readQuoted? (text : List Char) (rest : List Token) : Reading :=
  match rest with
  | .comma :: _ => readNames? [String.ofList text] (rest.length + 1) rest
  | _ => some ([.name (String.ofList text)], rest)

/-- What stands in brackets, other than a star or a filter. -/
def readSubscript? : List Token → Reading
  | .word text :: rest => do
    let position ← Numeral.integer? text
    match skipBlanks rest with
    | .comma :: after => readUnion? [position] (after.length + 2) (.comma :: after)
    | .colon :: after => readSliceFrom? position after
    | after => return ([.number (.ofInt position)], after)
  | .colon :: rest => readSliceTo? rest
  | .quoted text :: rest => readQuoted? text rest
  | _ => none

/-- The truth value that a word stands for: any word starting with `t` or `f` is one. -/
def truthOf? (text : List Char) : Option Bool :=
  match text with
  | c :: _ =>
    if ['t', 'T', 'f', 'F'].contains c then
      some (text.map Char.toLower == ['t', 'r', 'u', 'e'])
    else none
  | [] => none

/-- A number in a filter: words joined by one point. -/
def readNumber? (text : List Char) : List Token → Reading
  | .dot :: .word fraction :: rest => do
    return ([.number (← Numeral.float? (text ++ '.' :: fraction))], rest)
  | .dot :: _ => none
  | rest => do return ([.number (← Numeral.float? text)], rest)

/-- A number or a truth value in a filter. -/
def readWord? (text : List Char) (rest : List Token) : Reading :=
  match text with
  | c :: _ =>
    if c = '-' ∨ c.isDigit then readNumber? text rest
    else (truthOf? text).map fun b => ([.truth b], rest)
  | [] => none

mutual

def readSteps? : Nat → List Token → Reading
  | 0, _ => none
  | fuel + 1, tokens =>
    match tokens with
    | .dot :: rest => do
      let (step, rest) ← readDotted? fuel rest
      let (more, rest) ← readSteps? fuel rest
      return (step ++ more, rest)
    | .openBracket :: rest => do
      let (step, rest) ← readBracket? fuel (skipBlanks rest)
      let (more, rest) ← readSteps? fuel rest
      return (step ++ more, rest)
    | _ => some ([], tokens)

def readDotted? : Nat → List Token → Reading
  | 0, _ => none
  | fuel + 1, tokens =>
    match tokens with
    | .dot :: .star :: rest => some ([.descend, .all], rest)
    | .dot :: .word text :: rest => some ([.descend, .name (String.ofList text)], rest)
    | .dot :: .openBracket :: rest => do
      let (steps, rest) ← readSteps? fuel (.openBracket :: rest)
      return (.descend :: steps, rest)
    | .star :: rest => some ([.into, .all], rest)
    | .word text :: rest => some ([.into, .name (String.ofList text)], rest)
    | .openBracket :: rest => readBracket? fuel rest
    | _ => none

def readBracket? : Nat → List Token → Reading
  | 0, _ => none
  | fuel + 1, tokens =>
    let inside := match tokens with
      | .question :: .openParen :: rest => closedBy? .closeParen (readCondition? fuel rest)
      | .star :: rest => some ([.all], rest)
      | other => readSubscript? other
    (closedBy? .closeBracket inside).map fun (program, rest) =>
      (.bracket :: program ++ [.close], rest)

/-- A condition of a filter; `&&` and `||` bind to the right and equally. -/
def readCondition? : Nat → List Token → Reading
  | 0, _ => none
  | fuel + 1, tokens => do
    let (left, rest) ← match skipBlanks tokens with
      | .openParen :: rest => closedBy? .closeParen (readCondition? fuel rest)
      | other => readComparison? fuel other
    match skipBlanks rest with
    | .relation .both :: rest => do
      let (right, rest) ← readCondition? fuel rest
      return (left ++ right ++ [.relate .both], rest)
    | .relation .either :: rest => do
      let (right, rest) ← readCondition? fuel rest
      return (left ++ right ++ [.relate .either], rest)
    | rest => return (left, rest)

/-- Two operands with a relation between them, or a path from the tested value on its own. -/
def readComparison? : Nat → List Token → Reading
  | 0, _ => none
  | fuel + 1, tokens => do
    let (left, rest) ← readOperand? fuel tokens
    match skipBlanks rest with
    | .relation .both :: more =>
      if tokens.head? = some .here then return (left, .relation .both :: more) else none
    | .relation .either :: more =>
      if tokens.head? = some .here then return (left, .relation .either :: more) else none
    | .relation relation :: more => do
      let (right, rest) ← readOperand? fuel (skipBlanks more)
      return (left ++ .endOperand :: right ++ [.endOperand, .relate relation], rest)
    | other => if tokens.head? = some .here then return (left, other) else none

/-- An operand: a path, a quoted text, a number or a truth value. -/
def readOperand? : Nat → List Token → Reading
  | 0, _ => none
  | fuel + 1, tokens =>
    match tokens with
    | .here :: .blank :: rest => some ([.here], skipBlanks rest)
    | .here :: rest => do
      let (steps, rest) ← readSteps? fuel rest
      return (.here :: steps, rest)
    | .root :: rest => do
      let (steps, rest) ← readSteps? fuel rest
      return (.root :: steps, rest)
    | .quoted text :: rest => readQuoted? text rest
    | .word text :: rest => readWord? text rest
    | _ => none

end

/-- The steps of a query after its dollar sign; what continues no step is ignored. Every nested
call follows a token, and at most four calls follow each other on one. -/
def read? (query : List Char) : Option Program :=
  match tokens query with
  | .root :: rest => (readSteps? (4 * rest.length + 4) rest).map Prod.fst
  | _ => none

end JsonPath

end RecordMapping

import RecordMapping.Json.Basic
import RecordMapping.Number.Numeral

/-!
# Reading a document

A total reader of JSON text. Text that is not one value between blanks is refused, as are
containers nested 128 deep, control characters in strings, unpaired surrogates and numbers too
large for a double. Of two members with one name the later wins and keeps the earlier one's place.
The recursion is bounded by the length of the text, since every step consumes some of it.
-/

namespace RecordMapping

namespace Json

/-- The blanks between the tokens of a document. -/
def isSpace (c : Char) : Bool := c == ' ' || c == '\t' || c == '\n' || c == '\r'

def skipSpace (text : List Char) : List Char := text.dropWhile isSpace

def hexValue? (c : Char) : Option Nat :=
  let n := c.toNat
  if c.isDigit then some (n - 48)
  else if 97 ≤ n ∧ n ≤ 102 then some (n - 87)
  else if 65 ≤ n ∧ n ≤ 70 then some (n - 55)
  else none

def hexWord? (a b c d : Char) : Option Nat := do
  let a ← hexValue? a
  let b ← hexValue? b
  let c ← hexValue? c
  let d ← hexValue? d
  return ((a * 16 + b) * 16 + c) * 16 + d

/-- The first code unit of a pair of surrogates. -/
def isHighSurrogate (unit : Nat) : Bool := 0xD800 ≤ unit && unit ≤ 0xDBFF

/-- The second code unit of a pair of surrogates. -/
def isLowSurrogate (unit : Nat) : Bool := 0xDC00 ≤ unit && unit ≤ 0xDFFF

def pairedChar (high low : Nat) : Char :=
  Char.ofNat (0x10000 + (high - 0xD800) * 0x400 + (low - 0xDC00))

/-- The character named by the letter after a backslash. -/
def shortEscape? (c : Char) : Option Char :=
  if c = '"' ∨ c = '\\' ∨ c = '/' then some c
  else if c = 'b' then some (Char.ofNat 8)
  else if c = 'f' then some (Char.ofNat 12)
  else if c = 'n' then some '\n'
  else if c = 'r' then some '\r'
  else if c = 't' then some '\t'
  else none

/-- The characters of a string after its opening quote, collected in reverse. -/
def stringBody? (done : List Char) : List Char → Option (String × List Char)
  | [] => none
  | '"' :: rest => some (String.ofList done.reverse, rest)
  | '\\' :: 'u' :: a :: b :: c :: d :: rest =>
    match hexWord? a b c d with
    | none => none
    | some unit =>
      if isLowSurrogate unit then none
      else if isHighSurrogate unit then
        match rest with
        | '\\' :: 'u' :: e :: f :: g :: h :: more =>
          match hexWord? e f g h with
          | none => none
          | some low =>
            if isLowSurrogate low then stringBody? (pairedChar unit low :: done) more else none
        | _ => none
      else stringBody? (Char.ofNat unit :: done) rest
  | '\\' :: c :: rest =>
    match shortEscape? c with
    | none => none
    | some escaped => stringBody? (escaped :: done) rest
  | c :: rest => if c.toNat < 0x20 ∨ c = '\\' then none else stringBody? (c :: done) rest

def keyword? (word : List Char) (text : List Char) : Option (List Char) :=
  if word.isPrefixOf text then some (text.drop word.length) else none

mutual

/-- The value at the start of a text, and what follows it. -/
def value? : Nat → Nat → List Char → Option (Json × List Char)
  | 0, _, _ => none
  | fuel + 1, depth, text =>
    match skipSpace text with
    | [] => none
    | '[' :: rest =>
      if depth ≤ 1 then none
      else match skipSpace rest with
        | ']' :: after => some (.list [], after)
        | more => items? fuel (depth - 1) [] more
    | '{' :: rest =>
      if depth ≤ 1 then none
      else match skipSpace rest with
        | '}' :: after => some (.object [], after)
        | more => members? fuel (depth - 1) [] more
    | '"' :: rest => do
      let (s, after) ← stringBody? [] rest
      return (.string s, after)
    | c :: rest =>
      if c = 'n' then (keyword? ['u', 'l', 'l'] rest).map (.null, ·)
      else if c = 't' then (keyword? ['r', 'u', 'e'] rest).map (.bool true, ·)
      else if c = 'f' then (keyword? ['a', 'l', 's', 'e'] rest).map (.bool false, ·)
      else (Literal.read? (c :: rest)).map fun (n, after) => (.number n, after)

/-- The items of a list from one of them on, after those collected in reverse. -/
def items? : Nat → Nat → List Json → List Char → Option (Json × List Char)
  | 0, _, _, _ => none
  | fuel + 1, depth, done, text => do
    let (item, after) ← value? fuel depth text
    match skipSpace after with
    | ',' :: more => items? fuel depth (item :: done) more
    | ']' :: rest => some (.list (item :: done).reverse, rest)
    | _ => none

/-- The members of an object from one of them on, after those collected. -/
def members? : Nat → Nat → List (String × Json) → List Char → Option (Json × List Char)
  | 0, _, _, _ => none
  | fuel + 1, depth, done, text =>
    match skipSpace text with
    | '"' :: rest => do
      let (name, after) ← stringBody? [] rest
      match skipSpace after with
      | ':' :: more =>
        let (value, after) ← value? fuel depth more
        let done := putMember name value done
        match skipSpace after with
        | ',' :: more => members? fuel depth done more
        | '}' :: rest => some (.object done, rest)
        | _ => none
      | _ => none
    | _ => none

end

/-- Containers may be nested less than this many levels. -/
def depthLimit : Nat := 128

/-- The document that a text writes, if it is one. -/
def read? (text : List Char) : Option Json := do
  let (value, rest) ← value? (2 * text.length + 2) depthLimit text
  if (skipSpace rest).isEmpty then some value else none

/-- The document that a string writes, if it is one. -/
def ofText? (text : String) : Option Json := read? text.toList

end Json

end RecordMapping

import RecordMapping.Store.RecordStore

namespace RecordMapping

namespace IdSupply

def hexDigit (n : Nat) : Char := Nat.digitChar (n % 16)

/-- The hexadecimal digits of a number, the lowest first. -/
def hexDigits : Nat → Nat → List Char
  | 0, _ => []
  | count + 1, n => hexDigit n :: hexDigits count (n / 16)

/-- A number as a random UUID of version 4. -/
def uuid (n : Nat) : String :=
  let low := hexDigits 12 n
  let variant := hexDigits 3 (n / Nat.pow 16 12) ++ [hexDigit (8 + n / Nat.pow 16 15 % 4)]
  let version := hexDigits 3 (n / Nat.pow 16 16) ++ ['4']
  let middle := hexDigits 4 (n / Nat.pow 16 19)
  let high := hexDigits 8 (n / Nat.pow 16 23)
  "-".intercalate ([high, middle, version, variant, low].map fun digits =>
    String.ofList digits.reverse)

def ofNumber (start : Nat) : IdSupply := ⟨fun used => uuid (start + used), 0⟩

end IdSupply

end RecordMapping

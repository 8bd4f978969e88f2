namespace RecordMapping

def pieces (separator : Char) : List Char → List (List Char)
  | [] => [[]]
  | c :: rest =>
    if c = separator then [] :: pieces separator rest
    else match pieces separator rest with
      | [] => [[c]]
      | piece :: others => (c :: piece) :: others

def joinPieces (separator : List Char) : List (List Char) → List Char
  | [] => []
  | [piece] => piece
  | piece :: others => piece ++ separator ++ joinPieces separator others

/-- The text without a carriage return at its end. -/
def dropReturn (line : List Char) : List Char :=
  if line.getLast? = some '\r' then line.dropLast else line

/-- The lines of a text: a final line break starts no further line, and a carriage return before a
break belongs to the break. -/
def lines (text : List Char) : List (List Char) :=
  let all := pieces '\n' text
  let closed := all.dropLast.map dropReturn
  match all.getLast? with
  | some last => if last.isEmpty then closed else closed ++ [last]
  | none => closed

end RecordMapping

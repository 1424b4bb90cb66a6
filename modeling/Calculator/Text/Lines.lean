namespace Calculator.Text

/-- Carriage returns, with or without a line feed after them, become line feeds. -/
def unifyLineEnds : List Char → List Char
  | [] => []
  | '\r' :: '\n' :: rest => '\n' :: unifyLineEnds rest
  | '\r' :: rest => '\n' :: unifyLineEnds rest
  | c :: rest => c :: unifyLineEnds rest

/-- The pieces between the characters that end a piece; nothing after the last end is no piece. -/
def cut (ends : Char → Bool) : List Char → List (List Char)
  | [] => []
  | c :: rest =>
    if ends c then [] :: cut ends rest
    else
      match cut ends rest with
      | [] => [[c]]
      | piece :: more => (c :: piece) :: more

/-- A character that ends a line of a file. -/
def endsLine (c : Char) : Bool :=
  let n := c.toNat
  (0x0A ≤ n && n ≤ 0x0D) || (0x1C ≤ n && n ≤ 0x1E) || n == 0x85 || n == 0x2028 || n == 0x2029

/-- The lines of a text; a carriage return and the line feed after it are one end. -/
def lines (text : String) : List String :=
  (cut endsLine (unifyLineEnds text.toList)).map String.ofList

/-- The lines of typed input, which end at line feeds only. -/
def inputLines (text : String) : List String :=
  (cut (· == '\n') text.toList).map String.ofList

end Calculator.Text

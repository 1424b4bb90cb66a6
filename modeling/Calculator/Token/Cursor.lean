import Calculator.Token.Scan

namespace Calculator.Token

/-- A text, and the token that was read ahead of need. -/
structure Cursor where
  source : Source
  ahead : Option Token := none
deriving DecidableEq

namespace Cursor

def ofString (text : String) : Cursor :=
  { source := .ofString text }

/-- The current token, which stays current. -/
def peek (cursor : Cursor) : Token × Cursor :=
  match cursor.ahead with
  | some token => (token, cursor)
  | none =>
    let (token, source) := cursor.source.nextToken
    (token, ⟨source, some token⟩)

/-- The current token; the one after it becomes current. -/
def advance (cursor : Cursor) : Token × Cursor :=
  let (token, cursor) := cursor.peek
  let (following, source) := cursor.source.nextToken
  (token, ⟨source, some following⟩)

end Cursor

end Calculator.Token

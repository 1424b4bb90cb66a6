import Calculator.Token.Scan

namespace Calculator.Token

/-- A stretch of a text that one token covers. -/
structure Span where
  start : Nat
  length : Nat
  kind : Kind
deriving DecidableEq

def span (token : Token) : Span :=
  ⟨token.pos, token.text.length, token.kind⟩

/-- The spans of all tokens of a text, its end left out. -/
def spans (text : String) : List Span :=
  ((scan text).takeWhile (·.kind ≠ .eof)).map span

end Calculator.Token

import Calculator.Table
import Calculator.Token.Span

namespace Calculator

structure Highlight where
  start : Nat
  length : Nat
  colour : String
  bold : Bool
  underline : Bool
deriving DecidableEq

namespace Highlight

/-- The look of a span, if its kind has a colour. -/
def ofSpan? (colours : Table String) (span : Token.Span) : Option Highlight :=
  (colours.get? span.kind.name).map fun colour =>
    ⟨span.start, span.length, colour, span.kind = .keyword, span.kind = .invalid⟩

/-- The looks of a line, from left to right. -/
def line (colours : Table String) (text : String) : List Highlight :=
  (Token.spans text).filterMap (ofSpan? colours)

end Highlight

end Calculator

import Calculator.Text.Blank
import Calculator.Token.Basic

/-! A text that is being read: what is left of it, and how many characters were read. Reading past
the end gives no character and still counts. -/

namespace Calculator

structure Source where
  rest : List Char
  pos : Nat := 0
deriving DecidableEq

namespace Source

def ofString (text : String) : Source :=
  { rest := text.toList }

/-- The next character, which stays unread. -/
def current? (source : Source) : Option Char :=
  source.rest.head?

def finished (source : Source) : Bool :=
  source.rest.isEmpty

def next (source : Source) : Option Char × Source :=
  (source.rest.head?, ⟨source.rest.tail, source.pos + 1⟩)

/-- Read all characters up to the first one outside a class. -/
def skip (inClass : Char → Bool) (source : Source) : Source :=
  ⟨source.rest.dropWhile inClass, source.pos + (source.rest.takeWhile inClass).length⟩

end Source

end Calculator

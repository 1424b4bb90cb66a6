import Calculator.Decimal.Layout
import Calculator.Statement.Basic
import Calculator.Table

namespace Calculator

/-- Values under the names of one scope. -/
abbrev Scope := Table Binary64

/-- What a clause asks of one argument: to be named, or to equal a number. -/
inductive Slot where
  | bind (name : String)
  | literal (value : Binary64)
deriving DecidableEq

/-- The slots of a clause, one for each argument. -/
abbrev Pattern := List Slot

def Slot.text : Slot → String
  | .bind name => name
  | .literal value => value.text

namespace Pattern

def text (pattern : Pattern) : String :=
  ", ".intercalate (pattern.map Slot.text)

/-- Match the slots in order, naming arguments on top of the names that are there. -/
def bindInto (scope : Scope) : Pattern → List Binary64 → Option Scope
  | [], [] => some scope
  | .bind name :: slots, value :: values => bindInto (scope.set name value) slots values
  | .literal literal :: slots, value :: values =>
    if literal.equal value then bindInto scope slots values else none
  | _, _ => none

/-- The names of the arguments if the pattern accepts them; of a repeated name the last argument
counts. -/
def bind? (pattern : Pattern) (args : List Binary64) : Option Scope :=
  bindInto {} pattern args

end Pattern

structure Clause where
  pattern : Pattern
  body : Expr

/-- The first clause that accepts the arguments: the names it gives them, and its body. -/
def Clause.select? (clauses : List Clause) (args : List Binary64) : Option (Scope × Expr) :=
  clauses.findSome? fun clause => (clause.pattern.bind? args).map (·, clause.body)

end Calculator

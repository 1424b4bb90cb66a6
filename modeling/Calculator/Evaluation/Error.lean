import Calculator.Builtin.Basic
import Calculator.Decimal.Layout
import Calculator.Statement.SyntaxError
import Calculator.Text.Quoted

/-! Why a statement has no value. A cause is a mistake in the statement, told by its number; a
defect comes from outside the language: from a builtin, from a tree that no text reads as, or from
a limit under which nothing can run. -/

namespace Calculator

/-- A mistake in a statement. -/
inductive Cause where
  | malformed (error : SyntaxError)
  | undefinedName (name : String)
  | undefinedFunction (name : String)
  | arity (name : String) (expected given : Nat)
  | noMatch (name : String) (args : List Binary64)
  | unbalancedScopes
  | stackLimit
deriving DecidableEq

def Cause.message : Cause → String
  | .malformed error => error.message
  | .undefinedName name => "undefined " ++ name
  | .undefinedFunction name => "undefined function " ++ name
  | .arity name expected given =>
    "builtin function " ++ name ++ " expected " ++ Nat.repr expected ++ " arguments, but got " ++
      Nat.repr given
  | .noMatch name args =>
    "no matching clause was found for function call " ++ name ++ "(" ++
      ", ".intercalate (args.map Binary64.text) ++ ")"
  | .unbalancedScopes => "failed to leave scope"
  | .stackLimit => "maximum recursion depth exceeded"

/-- A failure that no statement can be blamed for. -/
inductive Defect where
  | raised (fault : Fault)
  | unknownOperator (symbol : String)
  | unknownExpression (kind : String)
  | limitTooLarge
  | limitAbsent
deriving DecidableEq

def Defect.kind : Defect → String
  | .raised fault => fault.kind
  | .unknownOperator _ => "KeyError"
  | .unknownExpression _ => "TypeError"
  | .limitTooLarge => "OverflowError"
  | .limitAbsent => "TypeError"

def Defect.message : Defect → String
  | .raised fault => fault.message
  | .unknownOperator symbol => Text.quoted symbol
  | .unknownExpression kind => "unknown expression node " ++ kind
  | .limitTooLarge => "Python int too large to convert to C int"
  | .limitAbsent => "'>' not supported between instances of 'list' and 'int'"

inductive Failure where
  | because (cause : Cause)
  | internal (defect : Defect)
deriving DecidableEq

/-- Why a statement has no answer: a cause with the number of the statement, or a defect. -/
inductive StatementFailure where
  | rejected (index : Nat) (cause : Cause)
  | internal (defect : Defect)
deriving DecidableEq

def Failure.ofStatement (index : Nat) : Failure → StatementFailure
  | .because cause => .rejected index cause
  | .internal defect => .internal defect

def StatementFailure.message : StatementFailure → String
  | .rejected index cause => "(Statement " ++ Nat.repr index ++ ") " ++ cause.message
  | .internal defect => "[internal] " ++ defect.kind ++ ": " ++ defect.message

end Calculator

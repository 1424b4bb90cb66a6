import Calculator.Token.Basic

namespace Calculator

inductive Expectation where
  | ending
  | operand
  | text (expected : String)
  | kind (expected : Token.Kind)
deriving DecidableEq

structure SyntaxError where
  found : Token
  expected : Expectation
deriving DecidableEq

def SyntaxError.message (error : SyntaxError) : String :=
  let found := error.found.text
  let kind := error.found.kind.name
  match error.expected with
  | .ending =>
    "unexpected token \"" ++ found ++ "\" of type <" ++ kind ++ "> at the end of the statement"
  | .operand =>
    "expected <number>, <word> or \"(\", found \"" ++ found ++ "\" of type <" ++ kind ++ ">"
  | .text expected => "expected \"" ++ expected ++ "\", found \"" ++ found ++ "\""
  | .kind expected =>
    "expected token of type <" ++ expected.name ++ ">, found \"" ++ found ++ "\" of type <" ++
      kind ++ ">"

end Calculator

import Calculator.Text.Quoted

namespace Calculator

/-- What a function is called in messages, and what it tells of its parameters: their names, that
there is none, or that there is one. -/
inductive Signature where
  | named (label : String) (params : List String)
  | bare (label : String)
  | single (label : String)

namespace Signature

/-- Items in a row, the last one behind an `and`. -/
def series : List String → String
  | [] => ""
  | [item] => item
  | [first, second] => first ++ " and " ++ second
  | items => ", ".intercalate items.dropLast ++ ", and " ++ items.getLastD ""

/-- The ending of a word that stands behind a number. -/
def plural (count : Nat) : String :=
  if count = 1 then "" else "s"

/-- What is said about a call with another number of arguments than there are parameters. -/
def complaint (given : Nat) : Signature → String
  | .named label params =>
    let missing := params.drop given
    if missing.isEmpty then
      label ++ "() takes " ++ Nat.repr params.length ++ " positional argument" ++
        plural params.length ++ " but " ++ Nat.repr given ++
        (if given = 1 then " was" else " were") ++ " given"
    else
      label ++ "() missing " ++ Nat.repr missing.length ++ " required positional argument" ++
        plural missing.length ++ ": " ++ series (missing.map Text.quoted)
  | .bare label => label ++ "() takes no arguments (" ++ Nat.repr given ++ " given)"
  | .single label => label ++ "() takes exactly one argument (" ++ Nat.repr given ++ " given)"

end Signature

end Calculator

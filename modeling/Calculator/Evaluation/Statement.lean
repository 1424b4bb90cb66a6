import Calculator.Evaluation.Expression
import Calculator.Statement.Basic

namespace Calculator

variable {σ : Type}

/-- What a statement answers: a number, or a text that confirms a definition. -/
inductive Answer where
  | number (value : Binary64)
  | note (text : String)
deriving DecidableEq

namespace Answer

def display : Answer → String
  | .number value => value.text
  | .note text => text

/-- The answer to a statement that asks for nothing. -/
def empty : Answer := .note "<empty>"

def clauseAdded (name : String) (pattern : Pattern) : Answer :=
  .note ("<func " ++ name ++ "(" ++ pattern.text ++ ") = ...>")

def constantSet (name : String) (value : Binary64) : Answer :=
  .note ("<const " ++ name ++ " = " ++ value.text ++ ">")

end Answer

namespace Statement

/-- The slots of parameters: a name stands for any argument, anything else for its value. -/
def slots (value : Expr → Machine σ → Evaluated σ Binary64) :
    List Expr → Machine σ → Evaluated σ Pattern
  | [], machine => (.ok [], machine)
  | .var name _ :: rest, machine =>
    match slots value rest machine with
    | (.error failure, machine) => (.error failure, machine)
    | (.ok more, machine) => (.ok (.bind name :: more), machine)
  | param :: rest, machine =>
    match value param machine with
    | (.error failure, machine) => (.error failure, machine)
    | (.ok first, machine) =>
      match slots value rest machine with
      | (.error failure, machine) => (.error failure, machine)
      | (.ok more, machine) => (.ok (.literal first :: more), machine)

/-- The frames that a statement leaves to its expressions: a definition spends one. -/
def allowance (frames : Nat) : Option Statement → Nat
  | some (.constant ..) => frames - 1
  | some (.clause ..) => frames - 1
  | _ => frames

/-- Do what a statement asks for within a number of frames. -/
def perform (builtins : Table (Builtin σ)) (frames : Nat) (statement : Option Statement)
    (machine : Machine σ) : Evaluated σ Answer :=
  let value := Expr.evaluate builtins (allowance frames statement)
  match statement with
  | none => (.ok .empty, machine)
  | some (.expression expr) =>
    match value expr machine with
    | (.error failure, machine) => (.error failure, machine)
    | (.ok result, machine) => (.ok (.number result), machine)
  | some (.constant name expr _) =>
    match value expr machine with
    | (.error failure, machine) => (.error failure, machine)
    | (.ok result, machine) =>
      let session := machine.session
      let session := { session with environment := session.environment.define name result }
      (.ok (.constantSet name result), { machine with session := session })
  | some (.clause name params body _) =>
    match slots value params machine with
    | (.error failure, machine) => (.error failure, machine)
    | (.ok pattern, machine) =>
      let session := machine.session.appendClause name ⟨pattern, body⟩
      (.ok (.clauseAdded name pattern), { machine with session := session })

end Statement

end Calculator

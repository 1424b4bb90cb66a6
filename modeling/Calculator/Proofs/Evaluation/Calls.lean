import Calculator.Proofs.Evaluation.Run
import Calculator.Proofs.Session.Key

namespace Calculator

variable {σ α : Type}

/-- A function and its evaluated arguments. -/
structure Call where
  name : String
  args : List Binary64
deriving DecidableEq

/-- No argument is a negative zero. -/
def Call.Signless (call : Call) : Prop :=
  ∀ x ∈ call.args, x ≠ Binary64.zero true

instance (call : Call) : Decidable call.Signless := by
  unfold Call.Signless
  infer_instance

/-- The calls made after an outcome; after a failure there are none. -/
def Evaluated.thenCalls (outcome : Evaluated σ α) (calls : α → Machine σ → List Call) :
    List Call :=
  match outcome with
  | (.error _, _) => []
  | (.ok value, machine) => calls value machine

namespace Expr

/-- The calls of expressions that are evaluated from left to right, up to the first failure. -/
def callsAll (value : Expr → Machine σ → Evaluated σ Binary64)
    (calls : Expr → Machine σ → List Call) : List Expr → Machine σ → List Call
  | [], _ => []
  | expr :: rest, machine =>
    calls expr machine ++
      (value expr machine).thenCalls fun _ machine => callsAll value calls rest machine

/-- The calls inside a call with evaluated arguments: those of the body, if a body is evaluated. -/
def callsWithin (builtins : Table (Builtin σ)) (calls : Expr → Machine σ → List Call)
    (name : String) (args : List Binary64) (machine : Machine σ) : List Call :=
  match machine.session.cache.find? (.ofCall name args), builtins.get? name with
  | none, none =>
    match (machine.session.functions.get? name).bind (Clause.select? · args) with
    | some (scope, body) => calls body (machine.enter scope)
    | none => []
  | _, _ => []

/-- The calls of an expression within a number of frames. -/
def calls (builtins : Table (Builtin σ)) : Nat → Expr → Machine σ → List Call
  | frames + 1, .binary _ left right _, machine =>
    calls builtins frames left machine ++
      (left.evaluate builtins frames machine).thenCalls fun _ machine =>
        calls builtins frames right machine
  | frames + 1, .unary .neg operand _, machine => calls builtins frames operand machine
  | inner + 3, .call name args _, machine =>
    callsAll (evaluate builtins inner) (calls builtins inner) args machine ++
      (evaluateAll (evaluate builtins inner) args machine).thenCalls fun values machine =>
        ⟨name, values⟩ :: callsWithin builtins (calls builtins inner) name values machine
  | _, _, _ => []

end Expr

namespace Statement

/-- The calls of parameters: one that is a name is not evaluated. -/
def slotCalls (value : Expr → Machine σ → Evaluated σ Binary64)
    (calls : Expr → Machine σ → List Call) : List Expr → Machine σ → List Call
  | [], _ => []
  | param :: rest, machine =>
    (match param with
      | .var _ _ => []
      | param => calls param machine) ++
      (slot value param machine).thenCalls fun _ machine => slotCalls value calls rest machine

def calls (builtins : Table (Builtin σ)) (frames : Nat) (statement : Option Statement)
    (machine : Machine σ) : List Call :=
  let left := allowance frames statement
  match statement with
  | none => []
  | some (.expression expr) => expr.calls builtins left machine
  | some (.constant _ expr _) => expr.calls builtins left machine
  | some (.clause _ params _ _) =>
    slotCalls (Expr.evaluate builtins left) (Expr.calls builtins left) params machine

end Statement

def Interpreter.calls (interpreter : Interpreter σ) (request : Request) : List Call :=
  match request.performed? interpreter.limit with
  | none => []
  | some (frames, statement) =>
    Statement.calls interpreter.builtins frames statement (interpreter.prepared request).machine

end Calculator

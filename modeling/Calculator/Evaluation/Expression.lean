import Calculator.Binary64.Checked
import Calculator.Evaluation.Error
import Calculator.Session.Basic

/-! The value of an expression. Evaluation spends frames: one for each expression that is under
way, one for each call, and one more for an argument or for the body of a clause. Looking up names
and results, matching patterns, joining numbers and running builtins spend none. A call evaluates
its arguments and asks the results of earlier calls before anything else; whatever else it does,
the scopes are left as they were found. -/

namespace Calculator

variable {σ : Type}

/-- What an evaluation works on: a session, and the hidden state of its builtins. -/
structure Machine (σ : Type) where
  session : Session
  hidden : σ

/-- A value or why there is none, and what is left of the machine in either case. -/
abbrev Evaluated (σ : Type) (α : Type) := Except Failure α × Machine σ

namespace BinaryOp

/-- The quotient. By zero it is infinite, with a sign that follows both signs, or nan where there is
nothing to divide. -/
def divide (x y : Binary64) : Except Fault Binary64 :=
  if y.isZero then
    if x.isZero || x.isNaN then .ok .nan else .ok (.infinity (x.isNegative != y.isNegative))
  else x.checkedDiv y

/-- The power. Either zero to a negative exponent is positive infinity, a power without a value is
nan, and one beyond the greatest number is infinite, with the sign that it would have. -/
def power (x y : Binary64) : Except Fault Binary64 :=
  if x.isZero && y.less (.zero false) then .ok (.infinity false)
  else
    match x.checkedPow y with
    | .ok value => .ok value
    | .error fault =>
      if fault.kind = "ValueError" then .ok .nan
      else if fault.kind = "OverflowError" then
        .ok (.infinity (x.less (.zero false) && y.isOddInteger))
      else .error fault

def apply (op : BinaryOp) (x y : Binary64) : Except Failure Binary64 :=
  match op with
  | .add => .ok (x.add y)
  | .sub => .ok (x.sub y)
  | .mul => .ok (x.mul y)
  | .div => (divide x y).mapError fun fault => .internal (.raised fault)
  | .pow => (power x y).mapError fun fault => .internal (.raised fault)
  | .other symbol => .error (.internal (.unknownOperator symbol))

end BinaryOp

namespace Machine

def remember (machine : Machine σ) (key : CallKey) (value : Binary64) : Machine σ :=
  { machine with session := machine.session.remember key value }

def enter (machine : Machine σ) (scope : Scope) : Machine σ :=
  { machine with
    session := { machine.session with environment := machine.session.environment.enter scope } }

def leave? (machine : Machine σ) : Option (Machine σ) :=
  match machine.session.environment.leave? with
  | none => none
  | some (_, environment) =>
    some { machine with session := { machine.session with environment := environment } }

/-- Run a computation in a scope of its own, which is closed whatever the outcome. -/
@[inline] def within (scope : Scope) (run : Machine σ → Evaluated σ Binary64)
    (machine : Machine σ) : Evaluated σ Binary64 :=
  let (result, after) := run (machine.enter scope)
  match after.leave? with
  | none => (.error (.because .unbalancedScopes), after)
  | some after => (result, after)

end Machine

namespace Expr

/-- The values of expressions, from left to right, up to the first failure. -/
@[specialize] def evaluateAll (value : Expr → Machine σ → Evaluated σ Binary64) :
    List Expr → Machine σ → Evaluated σ (List Binary64)
  | [], machine => (.ok [], machine)
  | expr :: rest, machine =>
    match value expr machine with
    | (.error failure, machine) => (.error failure, machine)
    | (.ok first, machine) =>
      match evaluateAll value rest machine with
      | (.error failure, machine) => (.error failure, machine)
      | (.ok more, machine) => (.ok (first :: more), machine)

def applyBuiltin (name : String) (builtin : Builtin σ) (args : List Binary64)
    (machine : Machine σ) : Evaluated σ Binary64 :=
  if builtin.arity ≠ args.length then
    (.error (.because (.arity name builtin.arity args.length)), machine)
  else
    match builtin.run args machine.hidden with
    | (.error fault, hidden) =>
      (.error (.internal (.raised fault)), { machine with hidden := hidden })
    | (.ok value, hidden) =>
      (.ok value, { machine with hidden := hidden }.remember (.ofCall name args) value)

/-- The value of the first clause that accepts the arguments, which is remembered. -/
@[inline] def applyClauses (value : Expr → Machine σ → Evaluated σ Binary64) (name : String)
    (clauses : List Clause) (args : List Binary64) (machine : Machine σ) :
    Evaluated σ Binary64 :=
  match Clause.select? clauses args with
  | none => (.error (.because (.noMatch name args)), machine)
  | some (scope, body) =>
    match machine.within scope (value body) with
    | (.error failure, machine) => (.error failure, machine)
    | (.ok result, machine) => (.ok result, machine.remember (.ofCall name args) result)

/-- The value of a call with evaluated arguments: an earlier result, else that of a builtin, else
that of a function of the session. -/
@[inline] def apply (builtins : Table (Builtin σ))
    (value : Expr → Machine σ → Evaluated σ Binary64) (name : String) (args : List Binary64)
    (machine : Machine σ) : Evaluated σ Binary64 :=
  match machine.session.cache.find? (.ofCall name args) with
  | some result => (.ok result, machine)
  | none =>
    match builtins.get? name with
    | some builtin => applyBuiltin name builtin args machine
    | none =>
      match machine.session.functions.get? name with
      | some clauses => applyClauses value name clauses args machine
      | none => (.error (.because (.undefinedFunction name)), machine)

/-- The value of an expression within a number of frames. -/
def evaluate (builtins : Table (Builtin σ)) :
    Nat → Expr → Machine σ → Evaluated σ Binary64
  | 0, _, machine => (.error (.because .stackLimit), machine)
  | frames + 1, expr, machine =>
    match expr with
    | .number value _ => (.ok value, machine)
    | .var name _ =>
      match machine.session.environment.find? name with
      | some value => (.ok value, machine)
      | none => (.error (.because (.undefinedName name)), machine)
    | .binary op left right _ =>
      match evaluate builtins frames left machine with
      | (.error failure, machine) => (.error failure, machine)
      | (.ok x, machine) =>
        match evaluate builtins frames right machine with
        | (.error failure, machine) => (.error failure, machine)
        | (.ok y, machine) => (op.apply x y, machine)
    | .unary (.other symbol) _ _ => (.error (.internal (.unknownOperator symbol)), machine)
    | .unary .neg operand _ =>
      match evaluate builtins frames operand machine with
      | (.error failure, machine) => (.error failure, machine)
      | (.ok x, machine) => (.ok x.neg, machine)
    | .call name args _ =>
      match frames with
      | inner + 2 =>
        match evaluateAll (evaluate builtins inner) args machine with
        | (.error failure, machine) => (.error failure, machine)
        | (.ok values, machine) => apply builtins (evaluate builtins inner) name values machine
      | _ => (.error (.because .stackLimit), machine)
    | .foreign kind _ => (.error (.internal (.unknownExpression kind)), machine)

end Expr

end Calculator

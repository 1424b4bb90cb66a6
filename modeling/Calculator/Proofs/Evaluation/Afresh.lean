import Calculator.Evaluation.Statement

/-! Evaluation with the treatment of calls left open. An evaluator differs from another only in
what it does with a call whose arguments have values, so the evaluator is written once with that
rule as a parameter. Under the rule that asks earlier results it is the evaluation of a session;
under the rule that computes every call anew it remembers nothing, and the first rule is the second
with a memory around it. -/

namespace Calculator

variable {σ α β : Type}

/-- Go on with a value, unless there is none. -/
def Evaluated.andThen (outcome : Evaluated σ α) (next : α → Machine σ → Evaluated σ β) :
    Evaluated σ β :=
  match outcome with
  | (.error failure, machine) => (.error failure, machine)
  | (.ok value, machine) => next value machine

@[simp] theorem Evaluated.andThen_ok (value : α) (machine : Machine σ)
    (next : α → Machine σ → Evaluated σ β) :
    Evaluated.andThen (.ok value, machine) next = next value machine :=
  rfl

@[simp] theorem Evaluated.andThen_error (failure : Failure) (machine : Machine σ)
    (next : α → Machine σ → Evaluated σ β) :
    Evaluated.andThen (.error failure, machine) next = (.error failure, machine) :=
  rfl

/-- What is done with a call once its arguments have values; the first argument evaluates bodies. -/
abbrev CallRule (σ : Type) :=
  (Expr → Machine σ → Evaluated σ Binary64) → String → List Binary64 → Machine σ →
    Evaluated σ Binary64

namespace Expr

theorem evaluateAll_cons (value : Expr → Machine σ → Evaluated σ Binary64) (expr : Expr)
    (rest : List Expr) (machine : Machine σ) :
    evaluateAll value (expr :: rest) machine =
      (value expr machine).andThen fun first machine =>
        (evaluateAll value rest machine).andThen fun more machine =>
          (.ok (first :: more), machine) := by
  rw [evaluateAll]
  rcases value expr machine with ⟨failure | first, middle⟩
  · rfl
  · rcases observed : evaluateAll value rest middle with ⟨failure | more, after⟩ <;>
      simp only [observed, Evaluated.andThen_ok, Evaluated.andThen_error]

/-- The value of an expression within a number of frames under a rule for calls. -/
def evaluateWith (rule : CallRule σ) : Nat → Expr → Machine σ → Evaluated σ Binary64
  | 0, _, machine => (.error (.because .stackLimit), machine)
  | _ + 1, .number value _, machine => (.ok value, machine)
  | _ + 1, .var name _, machine =>
    match machine.session.environment.find? name with
    | some value => (.ok value, machine)
    | none => (.error (.because (.undefinedName name)), machine)
  | frames + 1, .binary op left right _, machine =>
    (evaluateWith rule frames left machine).andThen fun x machine =>
      (evaluateWith rule frames right machine).andThen fun y machine => (op.apply x y, machine)
  | _ + 1, .unary (.other symbol) _ _, machine =>
    (.error (.internal (.unknownOperator symbol)), machine)
  | frames + 1, .unary .neg operand _, machine =>
    (evaluateWith rule frames operand machine).andThen fun x machine => (.ok x.neg, machine)
  | inner + 3, .call name args _, machine =>
    (evaluateAll (evaluateWith rule inner) args machine).andThen fun values machine =>
      rule (evaluateWith rule inner) name values machine
  | _ + 1, .call _ _ _, machine => (.error (.because .stackLimit), machine)
  | _ + 1, .foreign kind _, machine => (.error (.internal (.unknownExpression kind)), machine)

/-- Evaluation is evaluation under the rule that asks earlier results first. -/
theorem evaluate_eq_evaluateWith (builtins : Table (Builtin σ)) :
    evaluate builtins = evaluateWith (apply builtins) := by
  funext frames expr machine
  induction frames using Nat.strongRecOn generalizing expr machine with
  | ind frames ih =>
    have same (fewer : Nat) (less : fewer < frames) :
        evaluate builtins fewer = evaluateWith (apply builtins) fewer := by
      funext expr machine
      exact ih fewer less expr machine
    match frames, expr with
    | 0, _ => rfl
    | _ + 1, .number _ _ => rfl
    | _ + 1, .var _ _ => rfl
    | frames + 1, .binary op left right _ =>
      simp only [evaluate, evaluateWith, same frames (by omega)]
      rcases evaluateWith (apply builtins) frames left machine with ⟨failure | x, middle⟩
      · rfl
      · rcases observed : evaluateWith (apply builtins) frames right middle with
          ⟨failure | y, after⟩ <;>
          simp only [observed, Evaluated.andThen_ok, Evaluated.andThen_error]
    | _ + 1, .unary (.other _) _ _ => rfl
    | frames + 1, .unary .neg operand _ =>
      simp only [evaluate, evaluateWith, same frames (by omega)]
      rcases evaluateWith (apply builtins) frames operand machine with ⟨failure | x, after⟩ <;> rfl
    | 1, .call _ _ _ => rfl
    | 2, .call _ _ _ => rfl
    | inner + 3, .call name args _ =>
      simp only [evaluate, evaluateWith, same inner (by omega)]
      rcases evaluateAll (evaluateWith (apply builtins) inner) args machine with
        ⟨failure | values, after⟩ <;> rfl
    | _ + 1, .foreign _ _ => rfl

theorem evaluate_binary (builtins : Table (Builtin σ)) (frames : Nat) (op : BinaryOp)
    (left right : Expr) (pos : Option Nat) (machine : Machine σ) :
    evaluate builtins (frames + 1) (.binary op left right pos) machine =
      (left.evaluate builtins frames machine).andThen fun x machine =>
        (right.evaluate builtins frames machine).andThen fun y machine =>
          (op.apply x y, machine) := by
  simp only [evaluate_eq_evaluateWith, evaluateWith]

theorem evaluate_neg (builtins : Table (Builtin σ)) (frames : Nat) (operand : Expr)
    (pos : Option Nat) (machine : Machine σ) :
    evaluate builtins (frames + 1) (.unary .neg operand pos) machine =
      (operand.evaluate builtins frames machine).andThen fun x machine => (.ok x.neg, machine) := by
  simp only [evaluate_eq_evaluateWith, evaluateWith]

theorem evaluate_call (builtins : Table (Builtin σ)) (inner : Nat) (name : String)
    (args : List Expr) (pos : Option Nat) (machine : Machine σ) :
    evaluate builtins (inner + 3) (.call name args pos) machine =
      (evaluateAll (evaluate builtins inner) args machine).andThen fun values machine =>
        apply builtins (evaluate builtins inner) name values machine := by
  simp only [evaluate_eq_evaluateWith, evaluateWith]

/-- The value of a call with evaluated arguments, computed anew: that of a builtin, else that of a
function of the session. -/
def applyAfresh (builtins : Table (Builtin σ)) : CallRule σ := fun value name args machine =>
  match builtins.get? name with
  | some builtin =>
    if builtin.arity ≠ args.length then
      (.error (.because (.arity name builtin.arity args.length)), machine)
    else
      match builtin.run args machine.hidden with
      | (.error fault, hidden) =>
        (.error (.internal (.raised fault)), { machine with hidden := hidden })
      | (.ok result, hidden) => (.ok result, { machine with hidden := hidden })
  | none =>
    match machine.session.functions.get? name with
    | some clauses =>
      match Clause.select? clauses args with
      | none => (.error (.because (.noMatch name args)), machine)
      | some (scope, body) => machine.within scope (value body)
    | none => (.error (.because (.undefinedFunction name)), machine)

/-- The value of an expression within a number of frames, no result being remembered. -/
def evaluateAfresh (builtins : Table (Builtin σ)) : Nat → Expr → Machine σ → Evaluated σ Binary64 :=
  evaluateWith (applyAfresh builtins)

section Rules

variable {builtins : Table (Builtin σ)} {value : Expr → Machine σ → Evaluated σ Binary64}
  {name : String} {args : List Binary64} {machine : Machine σ}

theorem applyAfresh_of_arity {builtin : Builtin σ} (given : builtins.get? name = some builtin)
    (arity : builtin.arity ≠ args.length) :
    applyAfresh builtins value name args machine =
      (.error (.because (.arity name builtin.arity args.length)), machine) := by
  simp [applyAfresh, given, arity]

theorem applyAfresh_of_builtin {builtin : Builtin σ} (given : builtins.get? name = some builtin)
    (arity : builtin.arity = args.length) :
    applyAfresh builtins value name args machine =
      ((builtin.run args machine.hidden).1.mapError fun fault => .internal (.raised fault),
        { machine with hidden := (builtin.run args machine.hidden).2 }) := by
  simp only [applyAfresh, given, arity, ne_eq, not_true_eq_false, if_false]
  rcases builtin.run args machine.hidden with ⟨fault | result, hidden⟩ <;> rfl

theorem applyAfresh_of_undefined (given : builtins.get? name = none)
    (defined : machine.session.functions.get? name = none) :
    applyAfresh builtins value name args machine =
      (.error (.because (.undefinedFunction name)), machine) := by
  simp only [applyAfresh, given, defined]

theorem applyAfresh_of_noMatch (given : builtins.get? name = none) {clauses : List Clause}
    (defined : machine.session.functions.get? name = some clauses)
    (selected : Clause.select? clauses args = none) :
    applyAfresh builtins value name args machine =
      (.error (.because (.noMatch name args)), machine) := by
  simp only [applyAfresh, given, defined, selected]

theorem applyAfresh_of_clause (given : builtins.get? name = none) {clauses : List Clause}
    (defined : machine.session.functions.get? name = some clauses) {scope : Scope} {body : Expr}
    (selected : Clause.select? clauses args = some (scope, body)) :
    applyAfresh builtins value name args machine = machine.within scope (value body) := by
  simp only [applyAfresh, given, defined, selected]

theorem apply_of_present {result : Binary64}
    (present : machine.session.cache.find? (.ofCall name args) = some result) :
    apply builtins value name args machine = (.ok result, machine) := by
  simp only [apply, present]

/-- A call without an earlier result is computed anew and then remembered. -/
theorem apply_of_absent (absent : machine.session.cache.find? (.ofCall name args) = none) :
    apply builtins value name args machine =
      (applyAfresh builtins value name args machine).andThen fun result machine =>
        (.ok result, machine.remember (.ofCall name args) result) := by
  simp only [apply, absent]
  cases given : builtins.get? name with
  | some builtin =>
    by_cases arity : builtin.arity = args.length
    · rw [applyAfresh_of_builtin given arity]
      simp only [applyBuiltin, arity, ne_eq, not_true_eq_false, if_false]
      rcases builtin.run args machine.hidden with ⟨fault | result, hidden⟩ <;> rfl
    · rw [applyAfresh_of_arity given arity]
      simp [applyBuiltin, arity]
  | none =>
    cases defined : machine.session.functions.get? name with
    | none => rw [applyAfresh_of_undefined given defined]; rfl
    | some clauses =>
      rcases selected : Clause.select? clauses args with _ | ⟨scope, body⟩
      · rw [applyAfresh_of_noMatch given defined selected]
        simp only [applyClauses, selected, Evaluated.andThen_error]
      · rw [applyAfresh_of_clause given defined selected]
        simp only [applyClauses, selected]
        rcases machine.within scope (value body) with ⟨failure | result, after⟩ <;> rfl

end Rules

end Expr

end Calculator

import Calculator.Proofs.Evaluation.Afresh
import Calculator.Proofs.Evaluation.Arithmetic

/-! What can be promised of every evaluation. A promise says how a machine may move; if a call keeps
it whenever the body that it evaluates does, every expression keeps it within any number of frames,
and closing a scope never fails. -/

namespace Calculator

variable {σ α β : Type}

/-- A way in which machines may move, also when a builtin changes its hidden state and when a scope
is opened and closed again around another move. -/
structure Guarantee (σ : Type) where
  Moves : Machine σ → Machine σ → Prop
  refl : ∀ machine, Moves machine machine
  trans : ∀ {first second third}, Moves first second → Moves second third → Moves first third
  hidden : ∀ machine hidden, Moves machine { machine with hidden := hidden }
  leaves : ∀ {scope machine after}, Moves (machine.enter scope) after →
    ∃ left, after.leave? = some left ∧ Moves machine left

namespace Guarantee

/-- An evaluation moved the machine as promised, and left no scope too many. -/
structure Kept (promise : Guarantee σ) (before : Machine σ) (outcome : Evaluated σ α) : Prop where
  moves : promise.Moves before outcome.2
  balanced : outcome.1 ≠ .error (.because .unbalancedScopes)

variable {promise : Guarantee σ}

theorem Kept.ok (value : α) {before after : Machine σ} (moves : promise.Moves before after) :
    promise.Kept before (.ok value, after) :=
  ⟨moves, by simp⟩

theorem Kept.error {failure : Failure} (different : failure ≠ .because .unbalancedScopes)
    {before after : Machine σ} (moves : promise.Moves before after) :
    promise.Kept before ((.error failure, after) : Evaluated σ α) :=
  ⟨moves, by simpa using different⟩

theorem Kept.fails {failure : Failure} (different : failure ≠ .because .unbalancedScopes)
    (machine : Machine σ) : promise.Kept machine ((.error failure, machine) : Evaluated σ α) :=
  .error different (promise.refl machine)

theorem Kept.andThen {before : Machine σ} {outcome : Evaluated σ α}
    (kept : promise.Kept before outcome) {next : α → Machine σ → Evaluated σ β}
    (continued : ∀ value after, promise.Kept after (next value after)) :
    promise.Kept before (outcome.andThen next) := by
  rcases outcome with ⟨failure | value, middle⟩
  · exact ⟨kept.moves, by simpa using kept.balanced⟩
  · have rest := continued value middle
    exact ⟨promise.trans kept.moves rest.moves, rest.balanced⟩

theorem evaluateAll_kept {value : Expr → Machine σ → Evaluated σ Binary64}
    (each : ∀ expr machine, promise.Kept machine (value expr machine)) (exprs : List Expr)
    (machine : Machine σ) : promise.Kept machine (Expr.evaluateAll value exprs machine) := by
  induction exprs generalizing machine with
  | nil => exact .ok [] (promise.refl machine)
  | cons expr rest ih =>
    rw [Expr.evaluateAll_cons]
    apply (each expr machine).andThen
    intro first middle
    apply (ih middle).andThen
    intro more after
    exact .ok _ (promise.refl after)

private theorem applyOperator_kept (op : BinaryOp) (x y : Binary64) (machine : Machine σ) :
    promise.Kept machine (op.apply x y, machine) := by
  obtain ⟨value, applied⟩ | ⟨symbol, rfl⟩ := op.apply_cases x y
  · rw [applied]
    exact .ok value (promise.refl machine)
  · exact .fails (by simp) machine

/-- A promise that every call keeps, as long as the bodies it evaluates do, is kept by every
expression within any number of frames. -/
theorem evaluateWith_kept {rule : CallRule σ}
    (calls : ∀ value : Expr → Machine σ → Evaluated σ Binary64,
      (∀ expr machine, promise.Kept machine (value expr machine)) →
      ∀ name args machine, promise.Kept machine (rule value name args machine))
    (frames : Nat) (expr : Expr) (machine : Machine σ) :
    promise.Kept machine (expr.evaluateWith rule frames machine) := by
  induction frames using Nat.strongRecOn generalizing expr machine with
  | ind frames ih =>
    match frames, expr with
    | 0, _ => exact .fails (by simp) machine
    | _ + 1, .number value _ => exact .ok value (promise.refl machine)
    | _ + 1, .var name _ =>
      rw [Expr.evaluateWith]
      cases machine.session.environment.find? name with
      | some value => exact .ok value (promise.refl machine)
      | none => exact .fails (by simp) machine
    | frames + 1, .binary op left right _ =>
      rw [Expr.evaluateWith]
      apply (ih frames (by omega) left machine).andThen
      intro x middle
      apply (ih frames (by omega) right middle).andThen
      intro y after
      exact applyOperator_kept op x y after
    | _ + 1, .unary (.other symbol) _ _ => exact .fails (by simp) machine
    | frames + 1, .unary .neg operand _ =>
      rw [Expr.evaluateWith]
      apply (ih frames (by omega) operand machine).andThen
      intro x after
      exact .ok x.neg (promise.refl after)
    | 1, .call _ _ _ => exact .fails (by simp) machine
    | 2, .call _ _ _ => exact .fails (by simp) machine
    | inner + 3, .call name args _ =>
      have bodies := ih inner (by omega)
      rw [Expr.evaluateWith]
      apply (evaluateAll_kept bodies args machine).andThen
      intro values middle
      exact calls _ bodies name values middle
    | _ + 1, .foreign kind _ => exact .fails (by simp) machine

/-- A scope of its own is closed after the body, whatever the body's outcome. -/
theorem within_kept {run : Machine σ → Evaluated σ Binary64} (scope : Scope) (machine : Machine σ)
    (body : promise.Kept (machine.enter scope) (run (machine.enter scope))) :
    promise.Kept machine (machine.within scope run) := by
  rcases ran : run (machine.enter scope) with ⟨result, after⟩
  rw [ran] at body
  obtain ⟨left, closed, moves⟩ := promise.leaves body.moves
  simp only [Machine.within, ran, closed]
  exact ⟨moves, body.balanced⟩

theorem applyAfresh_kept (builtins : Table (Builtin σ))
    {value : Expr → Machine σ → Evaluated σ Binary64}
    (bodies : ∀ expr machine, promise.Kept machine (value expr machine)) (name : String)
    (args : List Binary64) (machine : Machine σ) :
    promise.Kept machine (Expr.applyAfresh builtins value name args machine) := by
  cases given : builtins.get? name with
  | some builtin =>
    by_cases arity : builtin.arity = args.length
    · rw [Expr.applyAfresh_of_builtin given arity]
      refine ⟨promise.hidden machine _, ?_⟩
      rcases (builtin.run args machine.hidden).1 with fault | result <;> exact nofun
    · rw [Expr.applyAfresh_of_arity given arity]
      exact .fails (by simp) machine
  | none =>
    cases defined : machine.session.functions.get? name with
    | none =>
      rw [Expr.applyAfresh_of_undefined given defined]
      exact .fails (by simp) machine
    | some clauses =>
      rcases selected : Clause.select? clauses args with _ | ⟨scope, body⟩
      · rw [Expr.applyAfresh_of_noMatch given defined selected]
        exact .fails (by simp) machine
      · rw [Expr.applyAfresh_of_clause given defined selected]
        exact within_kept scope machine (bodies body _)

theorem evaluateAfresh_kept (builtins : Table (Builtin σ)) (frames : Nat) (expr : Expr)
    (machine : Machine σ) : promise.Kept machine (expr.evaluateAfresh builtins frames machine) := by
  apply evaluateWith_kept
  intro value bodies name args machine
  exact applyAfresh_kept builtins bodies name args machine

/-- Evaluation keeps every promise that a new result does not break. A result is new: when its call
began, there was none under its key. -/
theorem evaluate_kept
    (remembers : ∀ {before after : Machine σ} {key : CallKey} (value : Binary64),
      before.session.cache.find? key = none → promise.Moves before after →
      promise.Moves before (after.remember key value))
    (builtins : Table (Builtin σ)) (frames : Nat) (expr : Expr) (machine : Machine σ) :
    promise.Kept machine (expr.evaluate builtins frames machine) := by
  rw [Expr.evaluate_eq_evaluateWith]
  apply evaluateWith_kept
  intro value bodies name args machine
  cases cached : machine.session.cache.find? (.ofCall name args) with
  | some result =>
    rw [Expr.apply_of_present cached]
    exact .ok result (promise.refl machine)
  | none =>
    have computed := applyAfresh_kept builtins bodies name args machine
    rw [Expr.apply_of_absent cached]
    rcases ran : Expr.applyAfresh builtins value name args machine with
      ⟨failure | result, after⟩ <;> rw [ran] at computed
    · exact computed
    · exact .ok result (remembers result cached computed.moves)

end Guarantee

end Calculator

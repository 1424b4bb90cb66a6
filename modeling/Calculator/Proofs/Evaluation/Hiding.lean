import Calculator.Proofs.Evaluation.Limit
import Calculator.Proofs.Evaluation.Stability

namespace Calculator

variable {σ α β : Type} {builtins : Table (Builtin σ)}

namespace Evaluated

/-- The outcomes are the same, and so are the sessions that are left. -/
structure Indistinct (first second : Evaluated σ α) : Prop where
  result : second.1 = first.1
  session : second.2.session = first.2.session

theorem Indistinct.same {first second : Machine σ} (alike : second.session = first.session)
    (result : Except Failure α) : Indistinct (result, first) (result, second) :=
  ⟨rfl, alike⟩

theorem Indistinct.andThen {first second : Evaluated σ α} (indistinct : first.Indistinct second)
    {next : α → Machine σ → Evaluated σ β}
    (continued : ∀ value (before other : Machine σ), other.session = before.session →
      (next value before).Indistinct (next value other)) :
    (first.andThen next).Indistinct (second.andThen next) := by
  obtain ⟨result, session⟩ := indistinct
  rcases first with ⟨failure | value, before⟩ <;> rcases second with ⟨_, other⟩ <;> cases result
  · exact .same session _
  · exact continued value before other session

end Evaluated

namespace Expr

/-- The value of an expression and the session that is left do not depend on the hidden state. -/
def Hides (value : Expr → Machine σ → Evaluated σ Binary64) : Prop :=
  ∀ (expr : Expr) (first second : Machine σ), second.session = first.session →
    (value expr first).Indistinct (value expr second)

section Steps

variable {value : Expr → Machine σ → Evaluated σ Binary64} (each : Hides value)
  {first second : Machine σ} (alike : second.session = first.session)

include each alike

private theorem evaluateAll_indistinct (exprs : List Expr) :
    (evaluateAll value exprs first).Indistinct (evaluateAll value exprs second) := by
  induction exprs generalizing first second with
  | nil => exact .same alike _
  | cons expr rest ih =>
    rw [evaluateAll_cons, evaluateAll_cons]
    apply (each expr first second alike).andThen
    intro x before other alike
    apply (ih alike).andThen
    intro more before other alike
    exact .same alike _

private theorem within_indistinct (scope : Scope) (body : Expr) :
    (first.within scope (value body)).Indistinct (second.within scope (value body)) := by
  have entered : (second.enter scope).session = (first.enter scope).session := by
    simp only [Machine.enter, alike]
  obtain ⟨result, session⟩ := each body _ _ entered
  simp only [Machine.within, Machine.leave?, session]
  cases (value body (first.enter scope)).2.session.environment.leave? with
  | none => exact ⟨rfl, session⟩
  | some closed => exact ⟨result, by simp only⟩

variable (pure : Builtin.AllPure builtins)

include pure

/-- A pure builtin changes nothing but the hidden state, and its answer does not show it. -/
private theorem applyAfresh_indistinct (name : String) (args : List Binary64) :
    (applyAfresh builtins value name args first).Indistinct
      (applyAfresh builtins value name args second) := by
  cases given : builtins.get? name with
  | some builtin =>
    by_cases arity : builtin.arity = args.length
    · rw [applyAfresh_of_builtin given arity, applyAfresh_of_builtin given arity,
        pure name builtin given args second.hidden first.hidden]
      exact ⟨rfl, alike⟩
    · rw [applyAfresh_of_arity given arity, applyAfresh_of_arity given arity]
      exact .same alike _
  | none =>
    have functions : second.session.functions.get? name = first.session.functions.get? name := by
      rw [alike]
    cases defined : first.session.functions.get? name with
    | none =>
      rw [applyAfresh_of_undefined given defined,
        applyAfresh_of_undefined given (functions.trans defined)]
      exact .same alike _
    | some clauses =>
      rcases selected : Clause.select? clauses args with _ | ⟨scope, body⟩
      · rw [applyAfresh_of_noMatch given defined selected,
          applyAfresh_of_noMatch given (functions.trans defined) selected]
        exact .same alike _
      · rw [applyAfresh_of_clause given defined selected,
          applyAfresh_of_clause given (functions.trans defined) selected]
        exact within_indistinct each alike scope body

private theorem apply_indistinct (name : String) (args : List Binary64) :
    (apply builtins value name args first).Indistinct (apply builtins value name args second) := by
  have results : second.session.cache.find? (.ofCall name args) =
      first.session.cache.find? (.ofCall name args) := by
    rw [alike]
  cases cached : first.session.cache.find? (.ofCall name args) with
  | some result =>
    rw [apply_of_present cached, apply_of_present (results.trans cached)]
    exact .same alike _
  | none =>
    rw [apply_of_absent cached, apply_of_absent (results.trans cached)]
    apply (applyAfresh_indistinct each alike pure name args).andThen
    intro result before other alike
    exact .same (congrArg (·.remember (.ofCall name args) result) alike) _

end Steps

/-- Pure builtins hide their state within any number of frames. The induction is on the frames,
since the bodies that a call evaluates are no parts of the expression. -/
theorem evaluate_hides (pure : Builtin.AllPure builtins) (frames : Nat) :
    Hides (evaluate builtins frames) := by
  induction frames using Nat.strongRecOn with
  | ind frames ih =>
    intro expr first second alike
    match frames, expr with
    | 0, _ => exact .same alike _
    | _ + 1, .number value _ => exact .same alike _
    | _ + 1, .var name _ =>
      rw [evaluate, evaluate, alike]
      cases first.session.environment.find? name <;> exact .same alike _
    | frames + 1, .binary op left right _ =>
      rw [evaluate_binary, evaluate_binary]
      apply (ih frames (by omega) left first second alike).andThen
      intro x before other alike
      apply (ih frames (by omega) right before other alike).andThen
      intro y before other alike
      exact .same alike _
    | _ + 1, .unary (.other _) _ _ => exact .same alike _
    | frames + 1, .unary .neg operand _ =>
      rw [evaluate_neg, evaluate_neg]
      apply (ih frames (by omega) operand first second alike).andThen
      intro x before other alike
      exact .same alike _
    | 1, .call _ _ _ => exact .same alike _
    | 2, .call _ _ _ => exact .same alike _
    | inner + 3, .call name args _ =>
      have bodies := ih inner (by omega)
      rw [evaluate_call, evaluate_call]
      apply (evaluateAll_indistinct bodies alike args).andThen
      intro values before other alike
      exact apply_indistinct bodies alike pure name values
    | _ + 1, .foreign _ _ => exact .same alike _

end Expr

namespace Statement

private theorem slots_indistinct {value : Expr → Machine σ → Evaluated σ Binary64}
    (each : Expr.Hides value) (params : List Expr) {first second : Machine σ}
    (alike : second.session = first.session) :
    (slots value params first).Indistinct (slots value params second) := by
  induction params generalizing first second with
  | nil => exact .same alike _
  | cons param rest ih =>
    have head : (slot value param first).Indistinct (slot value param second) := by
      cases param with
      | var name pos => exact .same alike _
      | _ =>
        apply (each _ first second alike).andThen
        intro x before other alike
        exact .same alike _
    rw [slots_cons, slots_cons]
    apply head.andThen
    intro slot before other alike
    apply (ih alike).andThen
    intro more before other alike
    exact .same alike _

theorem perform_indistinct (pure : Builtin.AllPure builtins) (frames : Nat)
    (statement : Option Statement) {first second : Machine σ}
    (alike : second.session = first.session) :
    (perform builtins frames statement first).Indistinct
      (perform builtins frames statement second) := by
  have each := Expr.evaluate_hides pure (allowance frames statement)
  simp only [perform_eq_performWith]
  match statement with
  | none => exact .same alike _
  | some (.expression expr) =>
    apply (each expr first second alike).andThen
    intro result before other alike
    exact .same alike _
  | some (.constant name expr _) =>
    apply (each expr first second alike).andThen
    intro result before other alike
    exact .same (by simp only [Machine.define, Machine.withEnvironment, alike]) _
  | some (.clause name params body _) =>
    apply (slots_indistinct each params alike).andThen
    intro pattern before other alike
    exact .same (by simp only [Machine.appendClause, alike]) _

end Statement

namespace Interpreter

/-- The interpreter with another hidden state of its builtins. -/
def withHidden (interpreter : Interpreter σ) (hidden : σ) : Interpreter σ :=
  { interpreter with machine := { interpreter.machine with hidden := hidden } }

variable {interpreter : Interpreter σ} (pure : Builtin.AllPure interpreter.builtins)

include pure

private theorem perform_withHidden (hidden : σ) (frames : Nat) (statement : Option Statement) :
    ∃ left, (interpreter.withHidden hidden).perform frames statement =
      ((interpreter.perform frames statement).1,
        (interpreter.perform frames statement).2.withHidden left) := by
  have alike : (interpreter.withHidden hidden).machine.session = interpreter.machine.session := rfl
  have performed := Statement.perform_indistinct pure frames statement alike
  refine ⟨((interpreter.withHidden hidden).perform frames statement).2.machine.hidden, ?_⟩
  apply Prod.ext
  · exact performed.result
  · simp only [perform, withHidden, ← performed.session]

/-- A text has the same outcome whatever the hidden state is, and the interpreters that are left
differ in nothing else. -/
theorem feed_withHidden (hidden : σ) (text : String) :
    ∃ left, (interpreter.withHidden hidden).feed text =
      ((interpreter.feed text).1, (interpreter.feed text).2.withHidden left) := by
  have counted : (interpreter.withHidden hidden).counted = interpreter.counted.withHidden hidden :=
    rfl
  have limit : (interpreter.counted.withHidden hidden).limit = interpreter.counted.limit := rfl
  have count : (interpreter.counted.withHidden hidden).count = interpreter.counted.count := rfl
  simp only [feed, counted, limit]
  rcases interpreter.counted.limit.budget with defect | frames
  · exact ⟨hidden, rfl⟩
  · simp only [run, count]
    rcases Statement.read frames text with (error | _) | statement
    · exact ⟨hidden, rfl⟩
    · exact ⟨hidden, rfl⟩
    · have kept : Builtin.AllPure interpreter.counted.builtins := pure
      obtain ⟨left, same⟩ := perform_withHidden kept hidden frames statement
      refine ⟨left, ?_⟩
      simp only [same]
      rcases interpreter.counted.perform frames statement with ⟨failure | answer, after⟩ <;> rfl

theorem feedAll_withHidden (hidden : σ) (texts : List String) :
    ((interpreter.withHidden hidden).feedAll texts).1 = (interpreter.feedAll texts).1 := by
  induction texts generalizing interpreter hidden with
  | nil => rfl
  | cons text rest ih =>
    obtain ⟨left, fed⟩ := feed_withHidden pure hidden text
    have kept : Builtin.AllPure (interpreter.feed text).2.builtins :=
      interpreter.serve_builtins (.feed text) ▸ pure
    simp only [feedAll, fed, ih kept left]

end Interpreter

end Calculator

import Calculator.Proofs.Evaluation.Run
import Calculator.Proofs.Session.Key

namespace Calculator

variable {σ : Type}

theorem Statement.perform_policy (builtins : Table (Builtin σ)) (frames : Nat)
    (statement : Option Statement) (machine : Machine σ) :
    (Statement.perform builtins frames statement machine).2.session.cache.policy =
      machine.session.cache.policy := by
  have moves := Guarantee.evaluated_moves
    (Guarantee.evaluate_undisturbed builtins (allowance frames statement)) statement machine
  have performed := perform_performed builtins frames statement machine
  rw [← moves.policy]
  generalize perform builtins frames statement machine = outcome at performed ⊢
  cases performed with
  | clause name params body pos pattern =>
    simp only [Machine.appendClause, Session.appendClause, ResultCache.redefined]
    split <;> rfl
  | _ => rfl

theorem Statement.perform_remembers (builtins : Table (Builtin σ)) (frames : Nat)
    (statement : Option Statement) {machine : Machine σ}
    (policy : machine.session.cache.policy = .session) :
    machine.Remembers (Statement.perform builtins frames statement machine).2 := by
  obtain ⟨undisturbed, grown⟩ := Guarantee.evaluated_moves
    (Guarantee.evaluate_remembering builtins (allowance frames statement)) statement machine
  have performed := perform_performed builtins frames statement machine
  generalize perform builtins frames statement machine = outcome at performed ⊢
  intro key result cached
  have kept := grown key result cached
  cases performed with
  | clause name params body pos pattern =>
    have same := undisturbed.policy.trans policy
    simpa only [Machine.appendClause, Session.appendClause, ResultCache.redefined, same] using kept
  | _ => exact kept

namespace Interpreter

theorem serve_policy (interpreter : Interpreter σ) (request : Request) :
    (interpreter.serve request).session.cache.policy = interpreter.session.cache.policy := by
  apply serve_induction
    (fun machine => machine.session.cache.policy = interpreter.session.cache.policy)
  · rw [prepared_cache]
    rfl
  · intro frames statement _
    rw [Statement.perform_policy, prepared_cache]
    rfl

theorem serveAll_policy (interpreter : Interpreter σ) (requests : List Request) :
    (interpreter.serveAll requests).session.cache.policy = interpreter.session.cache.policy := by
  induction requests generalizing interpreter with
  | nil => rfl
  | cons request rest ih => exact (ih _).trans (serve_policy interpreter request)

theorem serve_remembers {interpreter : Interpreter σ}
    (policy : interpreter.session.cache.policy = .session) (request : Request) :
    interpreter.machine.Remembers (interpreter.serve request).machine := by
  apply serve_induction interpreter.machine.Remembers
  · intro key result cached
    rw [prepared_cache]
    exact cached
  · intro frames statement _ key result cached
    apply Statement.perform_remembers interpreter.builtins frames statement
    · rw [prepared_cache]
      exact policy
    · rw [prepared_cache]
      exact cached

theorem serveAll_remembers {interpreter : Interpreter σ}
    (policy : interpreter.session.cache.policy = .session) (requests : List Request) :
    interpreter.machine.Remembers (interpreter.serveAll requests).machine := by
  induction requests generalizing interpreter with
  | nil => exact fun _ _ cached => cached
  | cons request rest ih =>
    intro key result cached
    apply ih ((serve_policy interpreter request).trans policy)
    exact serve_remembers policy request key result cached

end Interpreter

/-- A call whose arguments evaluate to a remembered key returns what was remembered, whatever else
has changed: its own arguments cannot displace the result either. -/
theorem Expr.evaluate_call_remembered {builtins : Table (Builtin σ)} {machine after : Machine σ}
    {name : String} {args values : List Binary64} {result : Binary64}
    (remembered : machine.session.cache.find? (.ofCall name args) = some result) {frames : Nat}
    {exprs : List Expr}
    (evaluated : Expr.evaluateAll (Expr.evaluate builtins frames) exprs machine =
      (.ok values, after))
    (same : List.Forall₂ Binary64.SameArgument values args) (pos : Option Nat) :
    (Expr.call name exprs pos).evaluate builtins (frames + 3) machine = (.ok result, after) := by
  have grown := (Guarantee.evaluateAll_kept (Guarantee.evaluate_remembering builtins frames)
    exprs machine).moves.2
  rw [evaluated] at grown
  have key : CallKey.ofCall name values = CallKey.ofCall name args :=
    CallKey.ofCall_eq_iff.mpr ⟨rfl, same⟩
  have found := grown _ result remembered
  rw [← key] at found
  simp only [Expr.evaluate, evaluated, Expr.apply, found]

/-- Under the session policy a remembered result is permanent. It survives every run of statements
with the value it had; a call of its key at any later point returns that value, however the
function and the constants were changed in between; and it survives the evaluation of any single
expression, from whatever machine that starts. -/
theorem Interpreter.remembered_results_permanent (interpreter : Interpreter σ)
    (policy : interpreter.session.cache.policy = .session) (requests : List Request) :
    (∀ key result, interpreter.session.cache.find? key = some result →
      (interpreter.serveAll requests).session.cache.find? key = some result) ∧
    (∀ name args result, interpreter.session.cache.find? (.ofCall name args) = some result →
      ∀ frames exprs pos values after,
        Expr.evaluateAll (Expr.evaluate interpreter.builtins frames) exprs
            (interpreter.serveAll requests).machine = (.ok values, after) →
        List.Forall₂ Binary64.SameArgument values args →
        (Expr.call name exprs pos).evaluate interpreter.builtins (frames + 3)
          (interpreter.serveAll requests).machine = (.ok result, after)) ∧
    ∀ (machine : Machine σ) key result, machine.session.cache.find? key = some result →
      ∀ frames (expr : Expr),
        (expr.evaluate interpreter.builtins frames machine).2.session.cache.find? key =
          some result := by
  have permanent := Interpreter.serveAll_remembers policy requests
  refine ⟨permanent, ?_, ?_⟩
  · intro name args result cached frames exprs pos values after evaluated same
    exact Expr.evaluate_call_remembered (permanent _ result cached) evaluated same pos
  · intro machine key result cached frames expr
    exact (Guarantee.evaluate_remembering interpreter.builtins frames expr machine).moves.2
      key result cached

/-- A session in which `f(0)` was defined to be one, and asked. -/
def rememberedZero : Interpreter Unit :=
  (Interpreter.create {} {} .session .standard ()).serveAll
    [.perform 9 (some (.clause "f" [.number (.zero false) none] (.number (.ofInt 1) none) none)),
      .perform 9 (some (.expression (.call "f" [.number (.zero false) none] none)))]

/-- A clause by which every `f(x)` would be two. -/
def lateClause : Request :=
  .perform 9 (some (.clause "f" [.var "x" none] (.number (.ofInt 2) none) none))

/-- The clause comes too late for zero, also for a negative zero. -/
theorem remembered_zero_permanent :
    rememberedZero.session.cache.policy = .session ∧
      (Expr.call "f" [.number (.zero true) none] none).evaluate rememberedZero.builtins (1 + 3)
          (rememberedZero.serveAll [lateClause]).machine =
        (.ok (.ofInt 1), (rememberedZero.serveAll [lateClause]).machine) := by
  have policy : rememberedZero.session.cache.policy = .session := rfl
  refine ⟨policy, ?_⟩
  apply (rememberedZero.remembered_results_permanent policy [lateClause]).2.1 "f" [.zero false]
    (.ofInt 1) rfl 1 [.number (.zero true) none] none [.zero true]
  · rfl
  · exact .cons (by decide) .nil

end Calculator

import Calculator.Proofs.Evaluation.Guarantee

namespace Calculator

variable {σ : Type}

namespace Machine

/-- Nothing but results of calls and the hidden state of the builtins may differ. -/
structure Undisturbed (before after : Machine σ) : Prop where
  environment : after.session.environment = before.session.environment
  functions : after.session.functions = before.session.functions
  statements : after.session.statements = before.session.statements
  policy : after.session.cache.policy = before.session.cache.policy

/-- Every result of the first machine is a result of the second. -/
def Remembers (before after : Machine σ) : Prop :=
  ∀ key result, before.session.cache.find? key = some result →
    after.session.cache.find? key = some result

def withEnvironment (machine : Machine σ) (environment : Environment) : Machine σ :=
  { machine with session := { machine.session with environment := environment } }

theorem Undisturbed.refl (machine : Machine σ) : Undisturbed machine machine :=
  ⟨rfl, rfl, rfl, rfl⟩

theorem Undisturbed.trans {first second third : Machine σ} (early : Undisturbed first second)
    (late : Undisturbed second third) : Undisturbed first third :=
  ⟨late.environment.trans early.environment, late.functions.trans early.functions,
    late.statements.trans early.statements, late.policy.trans early.policy⟩

theorem Undisturbed.leave? {scope : Scope} {machine after : Machine σ}
    (moved : Undisturbed (machine.enter scope) after) :
    after.leave? = some (after.withEnvironment machine.session.environment) := by
  have opened : after.session.environment = machine.session.environment.enter scope :=
    moved.environment
  simp only [Machine.leave?, opened, Environment.leave?_enter, withEnvironment]

theorem Undisturbed.leave {scope : Scope} {machine after : Machine σ}
    (moved : Undisturbed (machine.enter scope) after) :
    Undisturbed machine (after.withEnvironment machine.session.environment) :=
  ⟨rfl, moved.functions, moved.statements, moved.policy⟩

/-- A new result under a key that had none disturbs no other. -/
theorem Remembers.remember {before after : Machine σ} (grown : Remembers before after)
    {key : CallKey} (absent : before.session.cache.find? key = none) (value : Binary64) :
    Remembers before (after.remember key value) := by
  intro other result cached
  have different : other ≠ key := by
    intro same
    rw [same, absent] at cached
    cases cached
  have kept := grown other result cached
  exact (ResultCache.find?_insert_of_ne _ different value).trans kept

end Machine

namespace Guarantee

/-- Scopes, functions, count and policy stay. -/
def undisturbed : Guarantee σ where
  Moves := Machine.Undisturbed
  refl := Machine.Undisturbed.refl
  trans := Machine.Undisturbed.trans
  hidden _ _ := ⟨rfl, rfl, rfl, rfl⟩
  leaves moved := ⟨_, moved.leave?, moved.leave⟩

/-- Results stay too. -/
def remembering : Guarantee σ where
  Moves before after := before.Undisturbed after ∧ before.Remembers after
  refl machine := ⟨.refl machine, fun _ _ cached => cached⟩
  trans early late :=
    ⟨early.1.trans late.1, fun key result cached => late.2 key result (early.2 key result cached)⟩
  hidden _ _ := ⟨⟨rfl, rfl, rfl, rfl⟩, fun _ _ cached => cached⟩
  leaves moved := ⟨_, moved.1.leave?, moved.1.leave, moved.2⟩

theorem evaluate_undisturbed (builtins : Table (Builtin σ)) (frames : Nat) (expr : Expr)
    (machine : Machine σ) : undisturbed.Kept machine (expr.evaluate builtins frames machine) := by
  apply evaluate_kept
  intro before after key value _ moved
  exact moved.trans ⟨rfl, rfl, rfl, rfl⟩

/-- A call asks for its key before anything is computed, so a key that is there is never stored
again: not by the call itself, and not by the calls that its body makes. -/
theorem evaluate_remembering (builtins : Table (Builtin σ)) (frames : Nat) (expr : Expr)
    (machine : Machine σ) : remembering.Kept machine (expr.evaluate builtins frames machine) := by
  apply evaluate_kept
  intro before after key value absent moved
  exact ⟨moved.1.trans ⟨rfl, rfl, rfl, rfl⟩, moved.2.remember absent value⟩

end Guarantee

/-- Evaluation has no effect besides remembered results, however it ends: with a value, with a
mistake, out of frames at any depth, or with the fault of a builtin. The scopes are left with every
frame and binding, and closing a scope never fails. -/
theorem Expr.evaluate_effect_free (builtins : Table (Builtin σ)) (frames : Nat) (expr : Expr)
    (machine : Machine σ) :
    (expr.evaluate builtins frames machine).2.session.environment = machine.session.environment ∧
      (expr.evaluate builtins frames machine).2.session.functions = machine.session.functions ∧
      (expr.evaluate builtins frames machine).2.session.statements = machine.session.statements ∧
      (expr.evaluate builtins frames machine).2.session.cache.policy =
        machine.session.cache.policy ∧
      (expr.evaluate builtins frames machine).1 ≠ .error (.because .unbalancedScopes) := by
  have kept := Guarantee.evaluate_undisturbed builtins frames expr machine
  obtain ⟨environment, functions, statements, policy⟩ := kept.moves
  exact ⟨environment, functions, statements, policy, kept.balanced⟩

end Calculator

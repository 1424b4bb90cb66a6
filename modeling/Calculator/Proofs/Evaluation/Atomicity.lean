import Mathlib.Data.List.Forall2
import Calculator.Proofs.Evaluation.Run

namespace Calculator

variable {σ : Type}

namespace Session

/-- The sessions have the same scopes and functions. -/
structure Untouched (before after : Session) : Prop where
  environment : after.environment = before.environment
  functions : after.functions = before.functions

/-- One clause was added behind those of its function. -/
structure GainsClause (before after : Session) (name : String) (clause : Clause) : Prop where
  function : after.functions.get? name = some (before.clauses name ++ [clause])
  others : ∀ other, other ≠ name → after.functions.get? other = before.functions.get? other
  environment : after.environment = before.environment

structure GainsConstant (before after : Session) (name : String) (value : Binary64) : Prop where
  constant : after.environment.globals.get? name = some value
  others : ∀ other, other ≠ name →
    after.environment.globals.get? other = before.environment.globals.get? other
  locals : after.environment.locals = before.environment.locals
  functions : after.functions = before.functions

theorem gainsClause_appendClause {before session : Session} (untouched : before.Untouched session)
    (name : String) (clause : Clause) :
    before.GainsClause (session.appendClause name clause) name clause := by
  constructor
  · simp [appendClause, clauses, untouched.functions]
  · intro other different
    simp [appendClause, Table.get?_set_of_ne _ different, untouched.functions]
  · exact untouched.environment

theorem gainsConstant_define {before session : Session} (untouched : before.Untouched session)
    (name : String) (value : Binary64) :
    before.GainsConstant { session with environment := session.environment.define name value }
      name value := by
  constructor
  · exact Table.get?_set_self _ name value
  · intro other different
    simp [Environment.define, Table.get?_set_of_ne _ different, untouched.environment]
  · simp [Environment.define, untouched.environment]
  · exact untouched.functions

end Session

theorem Machine.Undisturbed.untouched {before after : Machine σ}
    (undisturbed : before.Undisturbed after) : before.session.Untouched after.session :=
  ⟨undisturbed.environment, undisturbed.functions⟩

namespace Statement

variable {value : Expr → Machine σ → Evaluated σ Binary64}

/-- The parameters become the slots, one after the other: a name stands for itself, anything else
for its value at that moment. -/
inductive Slotted (value : Expr → Machine σ → Evaluated σ Binary64) :
    List Expr → Machine σ → Pattern → Machine σ → Prop where
  | nil {machine : Machine σ} : Slotted value [] machine [] machine
  | name {name : String} {pos : Option Nat} {rest : List Expr} {more : Pattern}
      {machine after : Machine σ} :
    Slotted value rest machine more after →
      Slotted value (.var name pos :: rest) machine (.bind name :: more) after
  | literal {param : Expr} {rest : List Expr} {x : Binary64} {more : Pattern}
      {machine middle after : Machine σ} :
    (∀ name pos, param ≠ .var name pos) → value param machine = (.ok x, middle) →
      Slotted value rest middle more after →
      Slotted value (param :: rest) machine (.literal x :: more) after

theorem slotted_of_slots {params : List Expr} {machine after : Machine σ} {pattern : Pattern}
    (evaluated : slots value params machine = (.ok pattern, after)) :
    Slotted value params machine pattern after := by
  induction params generalizing machine pattern with
  | nil =>
    cases evaluated
    exact .nil
  | cons param rest ih =>
    rw [slots_cons] at evaluated
    rcases first : slot value param machine with ⟨failure | head, middle⟩ <;>
      rw [first] at evaluated
    · cases evaluated
    rw [Evaluated.andThen_ok] at evaluated
    rcases others : slots value rest middle with ⟨failure | more, last⟩ <;>
      rw [others] at evaluated <;> cases evaluated
    have slotted := ih others
    cases param with
    | var name pos =>
      cases first
      exact .name slotted
    | _ =>
      simp only [slot] at first
      rcases computed : value _ machine with ⟨failure | x, second⟩ <;> rw [computed] at first <;>
        cases first
      exact .literal (by simp) computed slotted

/-- What a statement with an answer did, from a machine to a later session. -/
inductive Accomplished (value : Expr → Machine σ → Evaluated σ Binary64) (machine : Machine σ)
    (after : Session) : Option Statement → Answer → Prop where
  | nothing : machine.session.Untouched after → Accomplished value machine after none .empty
  | computed {expr : Expr} {result : Binary64} :
    (value expr machine).1 = .ok result → machine.session.Untouched after →
      Accomplished value machine after (some (.expression expr)) (.number result)
  | constant {name : String} {expr : Expr} {pos : Option Nat} {result : Binary64} :
    (value expr machine).1 = .ok result → machine.session.GainsConstant after name result →
      Accomplished value machine after (some (.constant name expr pos)) (.constantSet name result)
  | clause {name : String} {params : List Expr} {body : Expr} {pos : Option Nat}
      {pattern : Pattern} {middle : Machine σ} :
    Slotted value params machine pattern middle →
      machine.session.GainsClause after name ⟨pattern, body⟩ →
      Accomplished value machine after (some (.clause name params body pos))
        (.clauseAdded name pattern)

theorem performWith_accomplished {statement : Option Statement} {machine after : Machine σ}
    {answer : Answer}
    (untouched : machine.session.Untouched (evaluated value statement machine).session)
    (performed : performWith value statement machine = (.ok answer, after)) :
    Accomplished value machine after.session statement answer := by
  match statement with
  | none =>
    cases performed
    exact .nothing untouched
  | some (.expression expr) =>
    simp only [performWith, evaluated] at performed untouched
    rcases ran : value expr machine with ⟨failure | result, middle⟩ <;>
      rw [ran] at performed untouched <;> cases performed
    exact .computed (by rw [ran]) untouched
  | some (.constant name expr pos) =>
    simp only [performWith, evaluated] at performed untouched
    rcases ran : value expr machine with ⟨failure | result, middle⟩ <;>
      rw [ran] at performed untouched <;> cases performed
    exact .constant (by rw [ran]) (Session.gainsConstant_define untouched name result)
  | some (.clause name params body pos) =>
    simp only [performWith, evaluated] at performed untouched
    rcases ran : slots value params machine with ⟨failure | pattern, middle⟩ <;>
      rw [ran] at performed untouched <;> cases performed
    exact .clause (slotted_of_slots ran) (Session.gainsClause_appendClause untouched name _)

/-- A statement without an answer leaves the machine as the evaluation of its expressions did. -/
theorem performWith_failed {statement : Option Statement} {machine after : Machine σ}
    {failure : Failure}
    (performed : performWith value statement machine = (.error failure, after)) :
    after = evaluated value statement machine := by
  have ended := performWith_performed value statement machine
  rw [performed] at ended
  cases ended
  rfl

theorem perform_statements (builtins : Table (Builtin σ)) (frames : Nat)
    (statement : Option Statement) (machine : Machine σ) :
    (perform builtins frames statement machine).2.session.statements =
      machine.session.statements := by
  have moves := Guarantee.evaluated_moves
    (Guarantee.evaluate_undisturbed builtins (allowance frames statement)) statement machine
  have performed := perform_performed builtins frames statement machine
  rw [← moves.statements]
  generalize perform builtins frames statement machine = outcome at performed ⊢
  cases performed <;> rfl

end Statement

namespace Interpreter

theorem feed_count (interpreter : Interpreter σ) (text : String) :
    (interpreter.feed text).2.count = interpreter.count + 1 := by
  apply serve_induction (fun machine => machine.session.statements = interpreter.count + 1)
    interpreter (.feed text) rfl
  intro frames statement _
  exact Statement.perform_statements interpreter.builtins frames statement _

/-- The exact effect of one text that is fed. It is counted once. If it has no answer, because it
cannot be read, because anything in it cannot be evaluated, because frames run out or because a
builtin or the limit is at fault, then all scopes and functions are as before and no remembered
result is lost or changed. If it has an answer, it was read as a statement, and that statement did
exactly what it says: a clause with the evaluated pattern and the body was added behind those of its
function, or one global constant was set, or nothing was touched. -/
theorem feed_atomic (interpreter : Interpreter σ) (text : String) :
    (interpreter.feed text).2.count = interpreter.count + 1 ∧
      (∀ failure, (interpreter.feed text).1 = .error failure →
        interpreter.session.Untouched (interpreter.feed text).2.session ∧
          interpreter.machine.Remembers (interpreter.feed text).2.machine) ∧
      ∀ answer, (interpreter.feed text).1 = .ok answer →
        ∃ frames statement, interpreter.limit.budget = .ok frames ∧
          Statement.read frames text = .ok statement ∧
          Statement.Accomplished
            (Expr.evaluate interpreter.builtins (Statement.allowance frames statement))
            interpreter.counted.machine (interpreter.feed text).2.session statement answer := by
  refine ⟨feed_count interpreter text, ?_⟩
  rcases interpreter.feed_cases text with ⟨failure, fed⟩ | ⟨frames, statement, budget, read, fed⟩
  · rw [fed]
    exact ⟨fun _ _ => ⟨⟨rfl, rfl⟩, fun _ _ cached => cached⟩, nofun⟩
  · obtain ⟨undisturbed, grown⟩ := Guarantee.evaluated_moves
      (Guarantee.evaluate_remembering interpreter.builtins (Statement.allowance frames statement))
      statement interpreter.counted.machine
    rcases performed : Statement.perform interpreter.builtins frames statement
      interpreter.counted.machine with ⟨failure | answer, after⟩ <;>
      rw [performed] at fed <;> rw [fed] <;> rw [Statement.perform_eq_performWith] at performed
    · refine ⟨fun _ _ => ?_, nofun⟩
      rw [Statement.performWith_failed performed]
      exact ⟨⟨undisturbed.environment, undisturbed.functions⟩, grown⟩
    · refine ⟨nofun, ?_⟩
      rintro _ ⟨⟩
      exact ⟨frames, statement, budget, read,
        Statement.performWith_accomplished undisturbed.untouched performed⟩

end Interpreter

/-- A session that forgets the results of a function when it gets another clause, in which `f(0)`
was defined to be one, and asked. -/
def forgetfulSession : Interpreter Unit :=
  (Interpreter.create {} {} .redefine .standard ()).serveAll [.feed "let f(0) = 1", .feed "f(0)"]

/-- A clause whose second parameter has no value is not added, and the result that its first one
asked for is not forgotten; once all its parameters have values it is added. -/
theorem clause_added_atomically :
    (forgetfulSession.feed "let f(f(0), g()) = 2").1 =
        .error (.rejected 3 (.undefinedFunction "g")) ∧
      forgetfulSession.session.Untouched
        (forgetfulSession.feed "let f(f(0), g()) = 2").2.session ∧
      (forgetfulSession.feed "let f(f(0), g()) = 2").2.machine.session.cache.find?
        (.ofCall "f" [.zero false]) = some (.ofInt 1) ∧
      (forgetfulSession.feed "let f(f(0), x) = x").1 =
        .ok (.clauseAdded "f" [.literal (.ofInt 1), .bind "x"]) ∧
      ∃ frames statement, Statement.read frames "let f(f(0), x) = x" = .ok statement ∧
        Statement.Accomplished
          (Expr.evaluate forgetfulSession.builtins (Statement.allowance frames statement))
          forgetfulSession.counted.machine
          (forgetfulSession.feed "let f(f(0), x) = x").2.session statement
          (.clauseAdded "f" [.literal (.ofInt 1), .bind "x"]) := by
  have failed : (forgetfulSession.feed "let f(f(0), g()) = 2").1 =
      .error (.rejected 3 (.undefinedFunction "g")) := by decide +kernel
  have added : (forgetfulSession.feed "let f(f(0), x) = x").1 =
      .ok (.clauseAdded "f" [.literal (.ofInt 1), .bind "x"]) := by decide +kernel
  have remembered : forgetfulSession.machine.session.cache.find? (.ofCall "f" [.zero false]) =
      some (.ofInt 1) := by decide +kernel
  obtain ⟨untouched, grown⟩ := (forgetfulSession.feed_atomic "let f(f(0), g()) = 2").2.1 _ failed
  obtain ⟨frames, statement, -, read, accomplished⟩ :=
    (forgetfulSession.feed_atomic "let f(f(0), x) = x").2.2 _ added
  have kept := grown (.ofCall "f" [.zero false]) (.ofInt 1) remembered
  exact ⟨failed, untouched, kept, added, frames, statement, read, accomplished⟩

end Calculator

import Calculator.Evaluation.Interpreter
import Calculator.Proofs.Evaluation.Effects

namespace Calculator

variable {σ : Type}

namespace Machine

def define (machine : Machine σ) (name : String) (value : Binary64) : Machine σ :=
  machine.withEnvironment (machine.session.environment.define name value)

def appendClause (machine : Machine σ) (name : String) (clause : Clause) : Machine σ :=
  { machine with session := machine.session.appendClause name clause }

end Machine

namespace Statement

def slot (value : Expr → Machine σ → Evaluated σ Binary64) (param : Expr)
    (machine : Machine σ) : Evaluated σ Slot :=
  match param with
  | .var name _ => (.ok (.bind name), machine)
  | param => (value param machine).andThen fun x machine => (.ok (.literal x), machine)

theorem slots_cons (value : Expr → Machine σ → Evaluated σ Binary64) (param : Expr)
    (rest : List Expr) (machine : Machine σ) :
    slots value (param :: rest) machine =
      (slot value param machine).andThen fun first machine =>
        (slots value rest machine).andThen fun more machine => (.ok (first :: more), machine) := by
  cases param with
  | var name pos =>
    simp only [slots, slot, Evaluated.andThen_ok]
    rcases slots value rest machine with ⟨failure | more, after⟩ <;> rfl
  | _ =>
    simp only [slots, slot]
    rcases value _ machine with ⟨failure | x, middle⟩
    · rfl
    · rcases observed : slots value rest middle with ⟨failure | more, after⟩ <;>
        simp only [observed, Evaluated.andThen_ok, Evaluated.andThen_error]

/-- Do what a statement asks for, its expressions being evaluated in the given way. -/
def performWith (value : Expr → Machine σ → Evaluated σ Binary64) (statement : Option Statement)
    (machine : Machine σ) : Evaluated σ Answer :=
  match statement with
  | none => (.ok .empty, machine)
  | some (.expression expr) =>
    (value expr machine).andThen fun result machine => (.ok (.number result), machine)
  | some (.constant name expr _) =>
    (value expr machine).andThen fun result machine =>
      (.ok (.constantSet name result), machine.define name result)
  | some (.clause name params body _) =>
    (slots value params machine).andThen fun pattern machine =>
      (.ok (.clauseAdded name pattern), machine.appendClause name ⟨pattern, body⟩)

/-- How a statement can end once its expressions were evaluated: one of them failed, there is
nothing more to do, one global constant is set, or one clause is added. -/
inductive Performed (evaluated : Machine σ) : Option Statement → Evaluated σ Answer → Prop where
  | failed {statement : Option Statement} (failure : Failure) :
    Performed evaluated statement (.error failure, evaluated)
  | nothing : Performed evaluated none (.ok .empty, evaluated)
  | computed (expr : Expr) (result : Binary64) :
    Performed evaluated (some (.expression expr)) (.ok (.number result), evaluated)
  | constant (name : String) (expr : Expr) (pos : Option Nat) (result : Binary64) :
    Performed evaluated (some (.constant name expr pos))
      (.ok (.constantSet name result), evaluated.define name result)
  | clause (name : String) (params : List Expr) (body : Expr) (pos : Option Nat)
      (pattern : Pattern) :
    Performed evaluated (some (.clause name params body pos))
      (.ok (.clauseAdded name pattern), evaluated.appendClause name ⟨pattern, body⟩)

/-- The machine once all expressions of a statement were evaluated, or one of them failed. -/
def evaluated (value : Expr → Machine σ → Evaluated σ Binary64) (statement : Option Statement)
    (machine : Machine σ) : Machine σ :=
  match statement with
  | none => machine
  | some (.expression expr) => (value expr machine).2
  | some (.constant _ expr _) => (value expr machine).2
  | some (.clause _ params _ _) => (slots value params machine).2

/-- A statement evaluates its expressions first and has its effect then, if none of them failed. -/
theorem performWith_performed (value : Expr → Machine σ → Evaluated σ Binary64)
    (statement : Option Statement) (machine : Machine σ) :
    Performed (evaluated value statement machine) statement
      (performWith value statement machine) := by
  match statement with
  | none => exact .nothing
  | some (.expression expr) =>
    simp only [performWith, evaluated]
    rcases value expr machine with ⟨failure | result, after⟩
    · exact .failed failure
    · exact .computed expr result
  | some (.constant name expr pos) =>
    simp only [performWith, evaluated]
    rcases value expr machine with ⟨failure | result, after⟩
    · exact .failed failure
    · exact .constant name expr pos result
  | some (.clause name params body pos) =>
    simp only [performWith, evaluated]
    rcases slots value params machine with ⟨failure | pattern, after⟩
    · exact .failed failure
    · exact .clause name params body pos pattern

theorem perform_eq_performWith (builtins : Table (Builtin σ)) (frames : Nat)
    (statement : Option Statement) :
    perform builtins frames statement =
      performWith (Expr.evaluate builtins (allowance frames statement)) statement := by
  funext machine
  unfold perform
  generalize Expr.evaluate builtins (allowance frames statement) = value
  match statement with
  | none => rfl
  | some (.expression expr) =>
    simp only [performWith]
    rcases value expr machine with ⟨failure | result, after⟩ <;> rfl
  | some (.constant name expr _) =>
    simp only [performWith]
    rcases value expr machine with ⟨failure | result, after⟩ <;> rfl
  | some (.clause name params body _) =>
    simp only [performWith]
    rcases slots value params machine with ⟨failure | pattern, after⟩ <;> rfl

theorem perform_performed (builtins : Table (Builtin σ)) (frames : Nat)
    (statement : Option Statement) (machine : Machine σ) :
    Performed (evaluated (Expr.evaluate builtins (allowance frames statement)) statement machine)
      statement (perform builtins frames statement machine) := by
  rw [perform_eq_performWith]
  exact performWith_performed _ statement machine

end Statement

namespace Guarantee

variable {promise : Guarantee σ} {value : Expr → Machine σ → Evaluated σ Binary64}

theorem slot_kept (each : ∀ expr machine, promise.Kept machine (value expr machine))
    (param : Expr) (machine : Machine σ) :
    promise.Kept machine (Statement.slot value param machine) := by
  cases param with
  | var name pos => exact .ok (Slot.bind name) (promise.refl machine)
  | _ =>
    apply (each _ machine).andThen
    intro x after
    exact .ok (Slot.literal x) (promise.refl after)

theorem slots_kept (each : ∀ expr machine, promise.Kept machine (value expr machine))
    (params : List Expr) (machine : Machine σ) :
    promise.Kept machine (Statement.slots value params machine) := by
  induction params generalizing machine with
  | nil => exact .ok [] (promise.refl machine)
  | cons param rest ih =>
    rw [Statement.slots_cons]
    apply (slot_kept each param machine).andThen
    intro slot middle
    apply (ih middle).andThen
    intro more after
    exact .ok (slot :: more) (promise.refl after)

/-- Whatever evaluation promises of a machine holds when a statement has evaluated all it needs. -/
theorem evaluated_moves (each : ∀ expr machine, promise.Kept machine (value expr machine))
    (statement : Option Statement) (machine : Machine σ) :
    promise.Moves machine (Statement.evaluated value statement machine) := by
  match statement with
  | none => exact promise.refl machine
  | some (.expression expr) => exact (each expr machine).moves
  | some (.constant _ expr _) => exact (each expr machine).moves
  | some (.clause _ params _ _) => exact (slots_kept each params machine).moves

end Guarantee

/-- What can be asked of an interpreter. -/
inductive Request where
  | feed (text : String)
  | perform (frames : Nat) (statement : Option Statement)

/-- The statement that a request comes down to and the frames it may spend; none when a text cannot
be read within the limit. -/
def Request.performed? (limit : FrameLimit) : Request → Option (Nat × Option Statement)
  | .perform frames statement => some (frames, statement)
  | .feed text =>
    match limit.budget with
    | .error _ => none
    | .ok frames =>
      match Statement.read frames text with
      | .error _ => none
      | .ok statement => some (frames, statement)

namespace Interpreter

def serve (interpreter : Interpreter σ) : Request → Interpreter σ
  | .feed text => (interpreter.feed text).2
  | .perform frames statement => (interpreter.perform frames statement).2

def serveAll (interpreter : Interpreter σ) (requests : List Request) : Interpreter σ :=
  requests.foldl serve interpreter

/-- The interpreter as a request finds it: a text is counted first. -/
def prepared (interpreter : Interpreter σ) : Request → Interpreter σ
  | .feed _ => interpreter.counted
  | .perform _ _ => interpreter

theorem prepared_cache (interpreter : Interpreter σ) (request : Request) :
    (interpreter.prepared request).machine.session.cache = interpreter.machine.session.cache := by
  cases request <;> rfl

theorem prepared_functions (interpreter : Interpreter σ) (request : Request) :
    (interpreter.prepared request).session.functions = interpreter.session.functions := by
  cases request <;> rfl

theorem prepared_builtins (interpreter : Interpreter σ) (request : Request) :
    (interpreter.prepared request).builtins = interpreter.builtins := by
  cases request <;> rfl

/-- Serving a request is performing its statement, if it comes down to one. -/
theorem serve_eq (interpreter : Interpreter σ) (request : Request) :
    interpreter.serve request =
      match request.performed? interpreter.limit with
      | none => interpreter.prepared request
      | some (frames, statement) =>
        ((interpreter.prepared request).perform frames statement).2 := by
  cases request with
  | perform frames statement => rfl
  | feed text =>
    have limit : interpreter.counted.limit = interpreter.limit := rfl
    simp only [serve, feed, limit, Request.performed?, prepared]
    rcases interpreter.limit.budget with defect | frames
    · rfl
    · simp only [run]
      rcases Statement.read frames text with (error | _) | statement
      · rfl
      · rfl
      · rcases ended : interpreter.counted.perform frames statement with
          ⟨failure | answer, after⟩ <;> simp only [ended]

/-- A text that is fed fails before any statement is performed, or the statement that it is read as
is performed and its failure gets the number of the statement. -/
theorem feed_cases (interpreter : Interpreter σ) (text : String) :
    (∃ failure, interpreter.feed text = (.error failure, interpreter.counted)) ∨
      ∃ frames statement, interpreter.limit.budget = .ok frames ∧
        Statement.read frames text = .ok statement ∧
        interpreter.feed text =
          let performed :=
            Statement.perform interpreter.builtins frames statement interpreter.counted.machine
          (performed.1.mapError (Failure.ofStatement (interpreter.count + 1)),
            { interpreter with machine := performed.2 }) := by
  have limit : interpreter.counted.limit = interpreter.limit := rfl
  have builtins : interpreter.counted.builtins = interpreter.builtins := rfl
  simp only [feed, limit]
  rcases interpreter.limit.budget with defect | frames
  · exact .inl ⟨_, rfl⟩
  · simp only [run]
    rcases read : Statement.read frames text with (error | _) | statement
    · exact .inl ⟨_, rfl⟩
    · exact .inl ⟨_, rfl⟩
    · refine .inr ⟨frames, statement, rfl, read, ?_⟩
      rcases performed : Statement.perform interpreter.builtins frames statement
        interpreter.counted.machine with ⟨failure | answer, after⟩ <;>
        simp only [perform, builtins, performed] <;> rfl

/-- A request does not touch what the interpreter was set up with. -/
theorem serve_builtins (interpreter : Interpreter σ) (request : Request) :
    (interpreter.serve request).builtins = interpreter.builtins := by
  rw [serve_eq]
  split <;> cases request <;> rfl

theorem serveAll_builtins (interpreter : Interpreter σ) (requests : List Request) :
    (interpreter.serveAll requests).builtins = interpreter.builtins := by
  induction requests generalizing interpreter with
  | nil => rfl
  | cons request rest ih => exact (ih _).trans (serve_builtins interpreter request)

/-- What a machine property needs to survive a request: counting keeps it, and so does every
statement. -/
theorem serve_induction (Holds : Machine σ → Prop) (interpreter : Interpreter σ)
    (request : Request)
    (start : Holds (interpreter.prepared request).machine)
    (step : ∀ frames statement, request.performed? interpreter.limit = some (frames, statement) →
      Holds (Statement.perform interpreter.builtins frames statement
        (interpreter.prepared request).machine).2) :
    Holds (interpreter.serve request).machine := by
  rw [serve_eq]
  split
  · exact start
  · rename_i frames statement performed
    have kept := step frames statement performed
    rw [← prepared_builtins interpreter request] at kept
    exact kept

end Interpreter

end Calculator

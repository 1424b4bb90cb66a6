import Calculator.Proofs.Evaluation.Calls

/-! Builtins that keep a record of the calls they answer. The record lies in the hidden state, which
only builtins touch, so that it lists their invocations and nothing else. Keeping it changes
nothing: a run with recording builtins is the run with the plain ones, and what is put into the
record does not depend on what is in it already. -/

namespace Calculator

variable {σ α β : Type}

namespace Builtin

/-- The builtin, with each call that it answers put at the end of a record. A call for which it
raises a fault is left out. -/
def recorded (name : String) (builtin : Builtin σ) : Builtin (σ × List Call) where
  arity := builtin.arity
  doc := builtin.doc
  run args state :=
    match builtin.run args state.1 with
    | (.error fault, hidden) => (.error fault, (hidden, state.2))
    | (.ok value, hidden) => (.ok value, (hidden, state.2 ++ [⟨name, args⟩]))

/-- All builtins of a table, with one record for all of them. -/
def recordedAll (builtins : Table (Builtin σ)) : Table (Builtin (σ × List Call)) :=
  ⟨builtins.entries.map fun entry => (entry.1, entry.2.recorded entry.1)⟩

theorem get?_recordedAll (builtins : Table (Builtin σ)) (name : String) :
    (recordedAll builtins).get? name = (builtins.get? name).map (recorded name) := by
  obtain ⟨entries⟩ := builtins
  simp only [recordedAll, Table.get?]
  induction entries with
  | nil => rfl
  | cons entry rest ih =>
    obtain ⟨other, builtin⟩ := entry
    by_cases same : name = other
    · simp [same]
    · have unequal : (name == other) = false := by simpa using same
      simpa [List.lookup_cons, unequal] using ih

end Builtin

open Builtin (recordedAll get?_recordedAll)

/-- The machine with a record beside the hidden state of its builtins. -/
def Machine.recording (machine : Machine σ) (record : List Call) : Machine (σ × List Call) :=
  ⟨machine.session, machine.hidden, record⟩

theorem Machine.leave?_recording (machine : Machine σ) (record : List Call) :
    (machine.recording record).leave? = machine.leave?.map (·.recording record) := by
  simp only [leave?, recording]
  cases machine.session.environment.leave? <;> rfl

/-- A computation with a record is the plain one, and adds to the record. -/
def Recorded (outcome : Evaluated σ α) (recording : List Call → Evaluated (σ × List Call) α) :
    Prop :=
  ∃ more, ∀ record, recording record = (outcome.1, outcome.2.recording (record ++ more))

namespace Recorded

theorem silent (result : Except Failure α) (machine : Machine σ) :
    Recorded (result, machine) fun record => (result, machine.recording record) :=
  ⟨[], fun record => by rw [List.append_nil]⟩

theorem andThen {outcome : Evaluated σ α} {recording : List Call → Evaluated (σ × List Call) α}
    (first : Recorded outcome recording) {next : α → Machine σ → Evaluated σ β}
    {following : α → Machine (σ × List Call) → Evaluated (σ × List Call) β}
    (second : ∀ value machine, Recorded (next value machine) fun record =>
      following value (machine.recording record)) :
    Recorded (outcome.andThen next) fun record => (recording record).andThen following := by
  obtain ⟨more, same⟩ := first
  rcases outcome with ⟨failure | value, machine⟩
  · refine ⟨more, fun record => ?_⟩
    simp only [same record, Evaluated.andThen_error]
  · obtain ⟨further, also⟩ := second value machine
    refine ⟨more ++ further, fun record => ?_⟩
    simp only [same record, Evaluated.andThen_ok, also, List.append_assoc]

theorem map {outcome : Evaluated σ α} {recording : List Call → Evaluated (σ × List Call) α}
    (first : Recorded outcome recording) (next : α → Except Failure β) :
    Recorded (outcome.andThen fun value machine => (next value, machine))
      fun record => (recording record).andThen fun value machine => (next value, machine) :=
  first.andThen fun value machine => silent (next value) machine

end Recorded

namespace Expr

section Steps

variable {value : Expr → Machine σ → Evaluated σ Binary64}
  {recording : Expr → Machine (σ × List Call) → Evaluated (σ × List Call) Binary64}
  (each : ∀ expr (machine : Machine σ),
    Recorded (value expr machine) fun record => recording expr (machine.recording record))

include each

private theorem evaluateAll_recorded (exprs : List Expr) (machine : Machine σ) :
    Recorded (evaluateAll value exprs machine) fun record =>
      evaluateAll recording exprs (machine.recording record) := by
  induction exprs generalizing machine with
  | nil => exact .silent _ machine
  | cons expr rest ih =>
    simp only [evaluateAll_cons]
    apply (each expr machine).andThen
    intro first machine
    exact (ih machine).map _

private theorem within_recorded (scope : Scope) (body : Expr) (machine : Machine σ) :
    Recorded (machine.within scope (value body)) fun record =>
      (machine.recording record).within scope (recording body) := by
  obtain ⟨more, same⟩ := each body (machine.enter scope)
  refine ⟨more, fun record => ?_⟩
  have ran : recording body ((machine.recording record).enter scope) = _ := same record
  simp only [Machine.within, ran, Machine.leave?_recording]
  cases (value body (machine.enter scope)).2.leave? <;> rfl

private theorem applyAfresh_recorded (builtins : Table (Builtin σ)) (name : String)
    (args : List Binary64) (machine : Machine σ) :
    Recorded (applyAfresh builtins value name args machine) fun record =>
      applyAfresh (recordedAll builtins) recording name args (machine.recording record) := by
  have listed := get?_recordedAll builtins name
  cases given : builtins.get? name with
  | some builtin =>
    rw [given, Option.map_some] at listed
    by_cases arity : builtin.arity = args.length
    · rw [applyAfresh_of_builtin given arity]
      simp only [applyAfresh_of_builtin listed arity, Builtin.recorded, Machine.recording]
      rcases builtin.run args machine.hidden with ⟨fault | result, hidden⟩
      · exact ⟨[], fun record => by rw [List.append_nil]; rfl⟩
      · exact ⟨[⟨name, args⟩], fun record => rfl⟩
    · rw [applyAfresh_of_arity given arity]
      simp only [applyAfresh_of_arity listed arity]
      exact .silent _ machine
  | none =>
    rw [given, Option.map_none] at listed
    cases defined : machine.session.functions.get? name with
    | none =>
      rw [applyAfresh_of_undefined given defined]
      simp only [applyAfresh_of_undefined listed
        (show (machine.recording _).session.functions.get? name = none from defined)]
      exact .silent _ machine
    | some clauses =>
      have also (record : List Call) :
          (machine.recording record).session.functions.get? name = some clauses := defined
      rcases selected : Clause.select? clauses args with _ | ⟨scope, body⟩
      · rw [applyAfresh_of_noMatch given defined selected]
        simp only [applyAfresh_of_noMatch listed (also _) selected]
        exact .silent _ machine
      · rw [applyAfresh_of_clause given defined selected]
        simp only [applyAfresh_of_clause listed (also _) selected]
        exact within_recorded each scope body machine

private theorem apply_recorded (builtins : Table (Builtin σ)) (name : String)
    (args : List Binary64) (machine : Machine σ) :
    Recorded (apply builtins value name args machine) fun record =>
      apply (recordedAll builtins) recording name args (machine.recording record) := by
  cases cached : machine.session.cache.find? (.ofCall name args) with
  | some result =>
    have also (record : List Call) : (machine.recording record).session.cache.find?
        (.ofCall name args) = some result := cached
    rw [apply_of_present cached]
    simp only [apply_of_present (also _)]
    exact .silent _ machine
  | none =>
    have also (record : List Call) : (machine.recording record).session.cache.find?
        (.ofCall name args) = none := cached
    rw [apply_of_absent cached]
    simp only [apply_of_absent (also _)]
    apply (applyAfresh_recorded each builtins name args machine).andThen
    intro result machine
    exact .silent (.ok result) (machine.remember (.ofCall name args) result)

end Steps

/-- Recording builtins evaluate every expression as the plain ones do. -/
theorem evaluate_recorded (builtins : Table (Builtin σ)) (frames : Nat) (expr : Expr)
    (machine : Machine σ) :
    Recorded (expr.evaluate builtins frames machine) fun record =>
      expr.evaluate (recordedAll builtins) frames (machine.recording record) := by
  induction frames using Nat.strongRecOn generalizing expr machine with
  | ind frames ih =>
    match frames, expr with
    | 0, _ => exact .silent _ machine
    | _ + 1, .number _ _ => exact .silent _ machine
    | _ + 1, .var name _ =>
      simp only [evaluate, Machine.recording]
      cases machine.session.environment.find? name <;> exact .silent _ machine
    | frames + 1, .binary op left right _ =>
      simp only [evaluate_binary]
      apply (ih frames (by omega) left machine).andThen
      intro x machine
      exact (ih frames (by omega) right machine).map _
    | _ + 1, .unary (.other _) _ _ => exact .silent _ machine
    | frames + 1, .unary .neg operand _ =>
      simp only [evaluate_neg]
      exact (ih frames (by omega) operand machine).map _
    | 1, .call _ _ _ => exact .silent _ machine
    | 2, .call _ _ _ => exact .silent _ machine
    | inner + 3, .call name args _ =>
      have bodies := ih inner (by omega)
      simp only [evaluate_call]
      apply (evaluateAll_recorded bodies args machine).andThen
      intro values machine
      exact apply_recorded bodies builtins name values machine
    | _ + 1, .foreign _ _ => exact .silent _ machine

end Expr

namespace Statement

section Steps

variable {value : Expr → Machine σ → Evaluated σ Binary64}
  {recording : Expr → Machine (σ × List Call) → Evaluated (σ × List Call) Binary64}
  (each : ∀ expr (machine : Machine σ),
    Recorded (value expr machine) fun record => recording expr (machine.recording record))

include each

private theorem slots_recorded (params : List Expr) (machine : Machine σ) :
    Recorded (slots value params machine) fun record =>
      slots recording params (machine.recording record) := by
  induction params generalizing machine with
  | nil => exact .silent _ machine
  | cons param rest ih =>
    have first : Recorded (slot value param machine) fun record =>
        slot recording param (machine.recording record) := by
      cases param with
      | var name pos => exact .silent _ machine
      | _ => exact (each _ machine).map _
    simp only [slots_cons]
    apply first.andThen
    intro slot machine
    exact (ih machine).map _

end Steps

theorem perform_recorded (builtins : Table (Builtin σ)) (frames : Nat)
    (statement : Option Statement) (machine : Machine σ) :
    Recorded (perform builtins frames statement machine) fun record =>
      perform (recordedAll builtins) frames statement (machine.recording record) := by
  have each := Expr.evaluate_recorded builtins (allowance frames statement)
  simp only [perform_eq_performWith]
  match statement with
  | none => exact .silent _ machine
  | some (.expression expr) => exact (each expr machine).map _
  | some (.constant name expr _) =>
    apply (each expr machine).andThen
    intro result machine
    exact .silent _ (machine.define name result)
  | some (.clause name params body _) =>
    apply (slots_recorded each params machine).andThen
    intro pattern machine
    exact .silent _ (machine.appendClause name ⟨pattern, body⟩)

end Statement

namespace Interpreter

def recording (interpreter : Interpreter σ) (record : List Call) :
    Interpreter (σ × List Call) where
  builtins := recordedAll interpreter.builtins
  constants := interpreter.constants
  limit := interpreter.limit
  machine := interpreter.machine.recording record

theorem prepared_recording (interpreter : Interpreter σ) (record : List Call)
    (request : Request) :
    (interpreter.recording record).prepared request =
      (interpreter.prepared request).recording record := by
  cases request <;> rfl

theorem perform_recording (interpreter : Interpreter σ) (frames : Nat)
    (statement : Option Statement) :
    ∃ more, ∀ record, (interpreter.recording record).perform frames statement =
      ((interpreter.perform frames statement).1,
        (interpreter.perform frames statement).2.recording (record ++ more)) := by
  obtain ⟨more, same⟩ := Statement.perform_recorded interpreter.builtins frames statement
    interpreter.machine
  refine ⟨more, fun record => ?_⟩
  have performed : Statement.perform (interpreter.recording record).builtins frames statement
      (interpreter.recording record).machine = _ := same record
  simp only [perform, performed]
  rfl

theorem serve_recording (interpreter : Interpreter σ) (request : Request) :
    ∃ more, ∀ record, (interpreter.recording record).serve request =
      (interpreter.serve request).recording (record ++ more) := by
  have limit (record : List Call) : (interpreter.recording record).limit = interpreter.limit := rfl
  simp only [serve_eq, limit, prepared_recording]
  cases request.performed? interpreter.limit with
  | none => exact ⟨[], fun record => by rw [List.append_nil]⟩
  | some asked =>
    obtain ⟨more, same⟩ := (interpreter.prepared request).perform_recording asked.1 asked.2
    exact ⟨more, fun record => congrArg Prod.snd (same record)⟩

/-- A run with recording builtins is the run with the plain ones. -/
theorem serveAll_recording (interpreter : Interpreter σ) (requests : List Request) :
    ∃ more, ∀ record, (interpreter.recording record).serveAll requests =
      (interpreter.serveAll requests).recording (record ++ more) := by
  induction requests generalizing interpreter with
  | nil => exact ⟨[], fun record => by rw [List.append_nil]; rfl⟩
  | cons request rest ih =>
    obtain ⟨first, served⟩ := interpreter.serve_recording request
    obtain ⟨more, same⟩ := ih (interpreter.serve request)
    refine ⟨first ++ more, fun record => ?_⟩
    simp only [serveAll, List.foldl_cons, served, ← List.append_assoc] at same ⊢
    exact same (record ++ first)

/-- The calls that builtins answer in a run, in the order of their invocation: the record of a run
that starts with an empty one. -/
def invocations (interpreter : Interpreter σ) (requests : List Request) : List Call :=
  ((interpreter.recording []).serveAll requests).machine.hidden.2

/-- Whatever is in the record, a run adds its invocations to it and is no different otherwise. -/
theorem serveAll_recording_eq (interpreter : Interpreter σ) (requests : List Request)
    (record : List Call) :
    (interpreter.recording record).serveAll requests =
      (interpreter.serveAll requests).recording (record ++ interpreter.invocations requests) := by
  obtain ⟨more, same⟩ := interpreter.serveAll_recording requests
  have added : interpreter.invocations requests = more := by
    rw [invocations, same, List.nil_append]
    rfl
  rw [same, added]

end Interpreter

end Calculator

import Calculator.Proofs.Evaluation.Calls

/-! The calls that an evaluation completes, in the order in which they are completed. Each is kept
with its value, with the calls that were still under way around it, and with the session into which
its value was put, unless the value was there already. A course tells how a machine moves while
calls are completed; every evaluation is one, so what holds of all courses holds of all
evaluations. -/

namespace Calculator

variable {σ α β : Type} {builtins : Table (Builtin σ)}

/-- What the result of a call is kept under. -/
def Call.key (call : Call) : CallKey :=
  .ofCall call.name call.args

structure Completion where
  call : Call
  value : Binary64
  /-- The calls that were still under way, the innermost first. -/
  around : List Call
  /-- The session just before the value was remembered; none if the value was an earlier result. -/
  kept : Option Session

namespace Completion

/-- The completion put a result under the key. -/
def Stores (key : CallKey) (completion : Completion) : Prop :=
  completion.kept.isSome = true ∧ completion.call.key = key

instance (key : CallKey) (completion : Completion) : Decidable (completion.Stores key) := by
  unfold Stores
  infer_instance

/-- The last completion that put a result under the key. -/
def newest? (key : CallKey) (done : List Completion) : Option Completion :=
  done.reverse.find? (Stores key ·)

theorem newest?_append (key : CallKey) (done more : List Completion) :
    newest? key (done ++ more) = (newest? key more).or (newest? key done) := by
  rw [newest?, List.reverse_append, List.find?_append]
  rfl

theorem newest?_of_stores {key : CallKey} {completion : Completion}
    (stores : completion.Stores key) : newest? key [completion] = some completion := by
  simp [newest?, stores]

theorem newest?_of_not_stores {key : CallKey} {completion : Completion}
    (other : ¬completion.Stores key) : newest? key [completion] = none := by
  simp [newest?, other]

theorem mem_of_newest? {key : CallKey} {done : List Completion} {completion : Completion}
    (newest : newest? key done = some completion) :
    completion ∈ done ∧ completion.Stores key := by
  have found := List.find?_some newest
  exact ⟨List.mem_reverse.mp (List.mem_of_find?_eq_some newest), by simpa using found⟩

end Completion

/-- The completions after an outcome; after a failure there are none. -/
def Evaluated.thenCompletions (outcome : Evaluated σ α)
    (completions : α → Machine σ → List Completion) : List Completion :=
  match outcome with
  | (.error _, _) => []
  | (.ok value, machine) => completions value machine

namespace Expr

/-- The completions of expressions that are evaluated from left to right, up to the first
failure. -/
def completionsAll (value : Expr → Machine σ → Evaluated σ Binary64)
    (completions : Expr → Machine σ → List Completion) : List Expr → Machine σ → List Completion
  | [], _ => []
  | expr :: rest, machine =>
    completions expr machine ++
      (value expr machine).thenCompletions fun _ machine =>
        completionsAll value completions rest machine

/-- The completions of the body that a call evaluates, if it evaluates one. -/
def completionsWithin (builtins : Table (Builtin σ))
    (completions : Expr → Machine σ → List Completion) (call : Call) (machine : Machine σ) :
    List Completion :=
  match builtins.get? call.name with
  | some _ => []
  | none =>
    match (machine.session.functions.get? call.name).bind (Clause.select? · call.args) with
    | some (scope, body) => completions body (machine.enter scope)
    | none => []

/-- The completions of a call with evaluated arguments: those of its body come first, and the call
is completed itself if it has a value. -/
def completionsOf (builtins : Table (Builtin σ)) (value : Expr → Machine σ → Evaluated σ Binary64)
    (completions : List Call → Expr → Machine σ → List Completion) (around : List Call)
    (call : Call) (machine : Machine σ) : List Completion :=
  match machine.session.cache.find? call.key with
  | some result => [⟨call, result, around, none⟩]
  | none =>
    completionsWithin builtins (completions (call :: around)) call machine ++
      (applyAfresh builtins value call.name call.args machine).thenCompletions
        fun result after => [⟨call, result, around, some after.session⟩]

/-- The completions of an expression within a number of frames, inside the calls under way. -/
def completions (builtins : Table (Builtin σ)) :
    Nat → List Call → Expr → Machine σ → List Completion
  | frames + 1, around, .binary _ left right _, machine =>
    completions builtins frames around left machine ++
      (left.evaluate builtins frames machine).thenCompletions fun _ machine =>
        completions builtins frames around right machine
  | frames + 1, around, .unary .neg operand _, machine =>
    completions builtins frames around operand machine
  | inner + 3, around, .call name args _, machine =>
    completionsAll (evaluate builtins inner) (completions builtins inner around) args machine ++
      (evaluateAll (evaluate builtins inner) args machine).thenCompletions fun values machine =>
        completionsOf builtins (evaluate builtins inner) (completions builtins inner) around
          ⟨name, values⟩ machine
  | _, _, _, _ => []

end Expr

namespace Statement

/-- The completions of one parameter: a name is not evaluated. -/
def slotCompletions (completions : Expr → Machine σ → List Completion) (param : Expr)
    (machine : Machine σ) : List Completion :=
  match param with
  | .var _ _ => []
  | param => completions param machine

/-- The completions of parameters, from left to right, up to the first failure. -/
def slotsCompletions (value : Expr → Machine σ → Evaluated σ Binary64)
    (completions : Expr → Machine σ → List Completion) : List Expr → Machine σ → List Completion
  | [], _ => []
  | param :: rest, machine =>
    slotCompletions completions param machine ++
      (slot value param machine).thenCompletions fun _ machine =>
        slotsCompletions value completions rest machine

def completions (builtins : Table (Builtin σ)) (frames : Nat) (statement : Option Statement)
    (machine : Machine σ) : List Completion :=
  let left := allowance frames statement
  match statement with
  | none => []
  | some (.expression expr) => expr.completions builtins left [] machine
  | some (.constant _ expr _) => expr.completions builtins left [] machine
  | some (.clause _ params _ _) =>
    slotsCompletions (Expr.evaluate builtins left) (Expr.completions builtins left []) params
      machine

end Statement

namespace Interpreter

def completions (interpreter : Interpreter σ) (request : Request) : List Completion :=
  match request.performed? interpreter.limit with
  | none => []
  | some (frames, statement) =>
    Statement.completions interpreter.builtins frames statement
      (interpreter.prepared request).machine

def history (interpreter : Interpreter σ) : List Request → List Completion
  | [] => []
  | request :: rest => interpreter.completions request ++ (interpreter.serve request).history rest

end Interpreter

/-- How a machine can move while calls are completed, inside the calls that are under way. -/
inductive Course : List Call → Machine σ → List Completion → Machine σ → Prop where
  | rest {around : List Call} {machine : Machine σ} : Course around machine [] machine
  | hidden {around : List Call} {machine : Machine σ} (hidden : σ) :
    Course around machine [] { machine with hidden := hidden }
  | trans {around : List Call} {first second third : Machine σ} {done more : List Completion} :
    Course around first done second → Course around second more third →
      Course around first (done ++ more) third
  | enclosed {around : List Call} {machine after : Machine σ} {scope : Scope}
      {done : List Completion} :
    Course around (machine.enter scope) done after →
      Course around machine done (after.withEnvironment machine.session.environment)
  | remembered {around : List Call} {machine : Machine σ} {call : Call} {value : Binary64} :
    machine.session.cache.find? call.key = some value →
      Course around machine [⟨call, value, around, none⟩] machine
  | failed {around : List Call} {machine after : Machine σ} {call : Call}
      {done : List Completion} :
    machine.session.cache.find? call.key = none → Course (call :: around) machine done after →
      Course around machine done after
  | kept {around : List Call} {machine after : Machine σ} {call : Call} {value : Binary64}
      {done : List Completion} :
    machine.session.cache.find? call.key = none → Course (call :: around) machine done after →
      Course around machine (done ++ [⟨call, value, around, some after.session⟩])
        (after.remember call.key value)

namespace Course

variable {around : List Call} {before after : Machine σ} {done : List Completion}

theorem andThen {outcome : Evaluated σ α} (course : Course around before done outcome.2)
    {next : α → Machine σ → Evaluated σ β} {further : α → Machine σ → List Completion}
    (continued : ∀ value, Course around outcome.2 (further value outcome.2)
      (next value outcome.2).2) :
    Course around before (done ++ outcome.thenCompletions further) (outcome.andThen next).2 := by
  rcases outcome with ⟨failure | value, middle⟩
  · simpa [Evaluated.thenCompletions] using course
  · exact course.trans (continued value)

theorem map {outcome : Evaluated σ α} (course : Course around before done outcome.2)
    {next : α → Machine σ → Except Failure β} :
    Course around before done
      (outcome.andThen fun value machine => (next value machine, machine)).2 := by
  rcases outcome with ⟨failure | value, middle⟩
  · exact course
  · exact course

theorem undisturbed (course : Course around before done after) : before.Undisturbed after := by
  induction course with
  | rest => exact .refl _
  | hidden hidden => exact ⟨rfl, rfl, rfl, rfl⟩
  | trans _ _ early late => exact early.trans late
  | enclosed _ ih => exact ih.leave
  | remembered _ => exact .refl _
  | failed _ _ ih => exact ih
  | kept _ _ ih => exact ih.trans ⟨rfl, rfl, rfl, rfl⟩

/-- The memory after a course is the one before it with the completed calls put in, the newest on
top. -/
theorem find?_eq (course : Course around before done after) (key : CallKey) :
    after.session.cache.find? key =
      ((Completion.newest? key done).map (·.value)).or (before.session.cache.find? key) := by
  induction course with
  | rest => rfl
  | hidden hidden => rfl
  | trans _ _ early late =>
    rw [late, early, Completion.newest?_append]
    cases Completion.newest? key _ <;> rfl
  | enclosed _ ih => exact ih
  | remembered _ =>
    rw [Completion.newest?_of_not_stores (by simp [Completion.Stores])]
    rfl
  | failed _ _ ih => exact ih
  | @kept around machine after call value done _ _ ih =>
    rw [Completion.newest?_append]
    by_cases same : call.key = key
    · rw [Completion.newest?_of_stores ⟨rfl, same⟩, ← same]
      exact ResultCache.find?_insert_self _ _ value
    · rw [Completion.newest?_of_not_stores fun stores => same stores.2, Option.none_or, ← ih]
      exact ResultCache.find?_insert_of_ne _ (Ne.symm same) value

/-- What was remembered stays remembered: a call asks for its key before it is computed. -/
theorem remembers (course : Course around before done after) : before.Remembers after := by
  induction course with
  | rest => exact fun _ _ cached => cached
  | hidden hidden => exact fun _ _ cached => cached
  | trans _ _ early late => exact fun key result cached => late key result (early key result cached)
  | enclosed _ ih => exact ih
  | remembered _ => exact fun _ _ cached => cached
  | failed _ _ ih => exact ih
  | kept absent _ ih => exact ih.remember absent _

theorem functions_of_kept (course : Course around before done after) {completion : Completion}
    (member : completion ∈ done) {session : Session} (kept : completion.kept = some session) :
    session.functions = before.session.functions := by
  induction course with
  | rest => cases member
  | hidden hidden => cases member
  | trans first _ early late =>
    rcases List.mem_append.mp member with member | member
    · exact early member
    · exact (late member).trans first.undisturbed.functions
  | enclosed _ ih => exact ih member
  | remembered _ =>
    cases List.mem_singleton.mp member
    cases kept
  | failed _ _ ih => exact ih member
  | kept _ inside ih =>
    rcases List.mem_append.mp member with member | member
    · exact ih member
    · cases List.mem_singleton.mp member
      cases kept
      exact inside.undisturbed.functions

end Course

namespace Expr

theorem evaluateAll_course {value : Expr → Machine σ → Evaluated σ Binary64}
    {completions : Expr → Machine σ → List Completion} {around : List Call}
    (each : ∀ expr machine,
      Course around machine (completions expr machine) (value expr machine).2)
    (exprs : List Expr) (machine : Machine σ) :
    Course around machine (completionsAll value completions exprs machine)
      (evaluateAll value exprs machine).2 := by
  induction exprs generalizing machine with
  | nil => exact .rest
  | cons expr rest ih =>
    rw [evaluateAll_cons, completionsAll]
    apply (each expr machine).andThen
    intro first
    exact (ih _).map

section Calls

variable {value : Expr → Machine σ → Evaluated σ Binary64}
  {completions : List Call → Expr → Machine σ → List Completion}
  (undisturbed : ∀ expr (machine : Machine σ), machine.Undisturbed (value expr machine).2)
  (each : ∀ around expr machine,
    Course around machine (completions around expr machine) (value expr machine).2)

include undisturbed each

variable (builtins) in
private theorem applyAfresh_course (around : List Call) (call : Call) (machine : Machine σ) :
    Course around machine (completionsWithin builtins (completions around) call machine)
      (applyAfresh builtins value call.name call.args machine).2 := by
  cases given : builtins.get? call.name with
  | some builtin =>
    simp only [completionsWithin, given]
    by_cases arity : builtin.arity = call.args.length
    · rw [applyAfresh_of_builtin given arity]
      exact .hidden _
    · rw [applyAfresh_of_arity given arity]
      exact .rest
  | none =>
    simp only [completionsWithin, given]
    cases defined : machine.session.functions.get? call.name with
    | none =>
      rw [applyAfresh_of_undefined given defined]
      exact .rest
    | some clauses =>
      rw [Option.bind_some]
      rcases selected : Clause.select? clauses call.args with _ | ⟨scope, body⟩
      · rw [applyAfresh_of_noMatch given defined selected]
        exact .rest
      · rw [applyAfresh_of_clause given defined selected]
        have left := (undisturbed body (machine.enter scope)).leave?
        simp only [Machine.within, left]
        exact .enclosed (each around body (machine.enter scope))

/-- A call returns an earlier result, fails, or is completed and remembered. -/
private theorem apply_course (around : List Call) (call : Call) (machine : Machine σ) :
    Course around machine (completionsOf builtins value completions around call machine)
      (apply builtins value call.name call.args machine).2 := by
  cases cached : machine.session.cache.find? call.key with
  | some result =>
    rw [apply_of_present cached]
    simp only [completionsOf, cached]
    exact .remembered cached
  | none =>
    have inside := applyAfresh_course builtins undisturbed each (call :: around) call machine
    rw [apply_of_absent cached]
    simp only [completionsOf, cached]
    rcases ran : applyAfresh builtins value call.name call.args machine with
      ⟨failure | result, after⟩ <;> rw [ran] at inside
    · simpa [Evaluated.thenCompletions] using Course.failed cached inside
    · exact .kept cached inside

end Calls

/-- Every evaluation is a course of the calls that it completes. -/
theorem evaluate_course (builtins : Table (Builtin σ)) (frames : Nat) (around : List Call)
    (expr : Expr) (machine : Machine σ) :
    Course around machine (expr.completions builtins frames around machine)
      (expr.evaluate builtins frames machine).2 := by
  induction frames using Nat.strongRecOn generalizing around expr machine with
  | ind frames ih =>
    match frames, expr with
    | 0, _ => exact .rest
    | _ + 1, .number _ _ => exact .rest
    | _ + 1, .var name _ =>
      rw [evaluate]
      cases machine.session.environment.find? name <;> exact .rest
    | frames + 1, .binary op left right _ =>
      rw [evaluate_binary, completions]
      apply (ih frames (by omega) around left machine).andThen
      intro x
      exact (ih frames (by omega) around right _).map
    | _ + 1, .unary (.other _) _ _ => exact .rest
    | frames + 1, .unary .neg operand _ =>
      rw [evaluate_neg, completions]
      exact (ih frames (by omega) around operand machine).map
    | 1, .call _ _ _ => exact .rest
    | 2, .call _ _ _ => exact .rest
    | inner + 3, .call name args _ =>
      have bodies := fun around expr machine => ih inner (by omega) around expr machine
      rw [evaluate_call, completions]
      apply (evaluateAll_course (bodies around) args machine).andThen
      intro values
      exact apply_course (fun expr machine =>
        (Guarantee.evaluate_undisturbed builtins inner expr machine).moves) bodies around
        ⟨name, values⟩ _
    | _ + 1, .foreign _ _ => exact .rest

end Expr

namespace Statement

theorem slots_course {value : Expr → Machine σ → Evaluated σ Binary64}
    {completions : Expr → Machine σ → List Completion} {around : List Call}
    (each : ∀ expr machine,
      Course around machine (completions expr machine) (value expr machine).2)
    (params : List Expr) (machine : Machine σ) :
    Course around machine (slotsCompletions value completions params machine)
      (slots value params machine).2 := by
  induction params generalizing machine with
  | nil => exact .rest
  | cons param rest ih =>
    have first : Course around machine (slotCompletions completions param machine)
        (slot value param machine).2 := by
      cases param with
      | var name pos => exact .rest
      | _ => exact (each _ machine).map
    rw [slots_cons, slotsCompletions]
    apply first.andThen
    intro slot
    exact (ih _).map

theorem evaluated_course (builtins : Table (Builtin σ)) (frames : Nat)
    (statement : Option Statement) (machine : Machine σ) :
    Course [] machine (completions builtins frames statement machine)
      (evaluated (Expr.evaluate builtins (allowance frames statement)) statement machine) := by
  have each := Expr.evaluate_course builtins (allowance frames statement) []
  match statement with
  | none => exact .rest
  | some (.expression expr) => exact each expr machine
  | some (.constant _ expr _) => exact each expr machine
  | some (.clause _ params _ _) => exact slots_course each params machine

end Statement

end Calculator

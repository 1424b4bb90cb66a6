import Calculator.Proofs.Evaluation.Effects
import Calculator.Proofs.Session.Selection

/-! What an evaluation can see of the scopes: the values of the names that stand in the expression
or in the body of some clause. Two machines that differ only in what is out of sight, be it hidden
behind another scope, under a name that nobody mentions, or the number of scopes, evaluate every
such expression alike and remember the same results. -/

namespace Calculator

variable {σ α β : Type}

/-- The name stands for a value in the body of some clause. -/
def Session.Mentions (session : Session) (name : String) : Prop :=
  ∃ function, ∃ clause ∈ session.clauses function, name ∈ clause.body.freeNames

theorem Session.mentions_of_select? {session : Session} {function : String}
    {clauses : List Clause} (defined : session.functions.get? function = some clauses)
    {args : List Binary64} {scope : Scope} {body : Expr}
    (selected : Clause.select? clauses args = some (scope, body)) {name : String}
    (member : name ∈ body.freeNames) : session.Mentions name := by
  obtain ⟨clause, present, -, rfl⟩ := Clause.exists_of_select? selected
  exact ⟨function, clause, by simpa [Session.clauses, defined] using present, member⟩

namespace Machine

/-- The machines have the same functions, results and hidden state, and the same values under the
names that count, among which are those that clauses mention. -/
structure AgreesOn (Counts : String → Prop) (first second : Machine σ) : Prop where
  functions : second.session.functions = first.session.functions
  cache : second.session.cache = first.session.cache
  hidden : second.hidden = first.hidden
  values : ∀ name, Counts name →
    second.session.environment.find? name = first.session.environment.find? name
  mentioned : ∀ name, first.session.Mentions name → Counts name

namespace AgreesOn

variable {Counts : String → Prop} {first second : Machine σ}

theorem withHidden (agrees : AgreesOn Counts first second) (hidden : σ) :
    AgreesOn Counts { first with hidden := hidden } { second with hidden := hidden } :=
  ⟨agrees.functions, agrees.cache, rfl, agrees.values, agrees.mentioned⟩

theorem remember (agrees : AgreesOn Counts first second) (key : CallKey) (value : Binary64) :
    AgreesOn Counts (first.remember key value) (second.remember key value) :=
  ⟨agrees.functions, congrArg (·.insert key value) agrees.cache, agrees.hidden, agrees.values,
    agrees.mentioned⟩

/-- The same scope opened on both stacks hides the same names on both. -/
theorem enter (agrees : AgreesOn Counts first second) (scope : Scope) :
    AgreesOn Counts (first.enter scope) (second.enter scope) := by
  refine ⟨agrees.functions, agrees.cache, agrees.hidden, ?_, agrees.mentioned⟩
  intro name counts
  have behind := agrees.values name counts
  simp only [Machine.enter, Environment.find?_enter, behind]

/-- Machines that agree when a scope is opened and agree within it agree behind it. -/
theorem leave (agrees : AgreesOn Counts first second) {inner other : Machine σ}
    (within : AgreesOn Counts inner other) :
    AgreesOn Counts (inner.withEnvironment first.session.environment)
      (other.withEnvironment second.session.environment) :=
  ⟨within.functions, within.cache, within.hidden, agrees.values, within.mentioned⟩

end AgreesOn

end Machine

namespace Evaluated

/-- The outcomes are the same, and the machines left agree. -/
structure AgreesOn (Counts : String → Prop) (first second : Evaluated σ α) : Prop where
  result : second.1 = first.1
  machine : first.2.AgreesOn Counts second.2

theorem AgreesOn.same {Counts : String → Prop} {first second : Machine σ}
    (agrees : first.AgreesOn Counts second) (result : Except Failure α) :
    AgreesOn Counts (result, first) (result, second) :=
  ⟨rfl, agrees⟩

theorem AgreesOn.andThen {Counts : String → Prop} {first second : Evaluated σ α}
    (agrees : first.AgreesOn Counts second) {next : α → Machine σ → Evaluated σ β}
    (continued : ∀ value before other, before.AgreesOn Counts other →
      (next value before).AgreesOn Counts (next value other)) :
    (first.andThen next).AgreesOn Counts (second.andThen next) := by
  obtain ⟨result, machine⟩ := agrees
  rcases first with ⟨failure | value, before⟩ <;> rcases second with ⟨_, other⟩ <;> cases result
  · exact .same machine _
  · exact continued value before other machine

end Evaluated

namespace Expr

/-- The names that count are all that the value of an expression depends on. -/
def SeesOnly (Counts : String → Prop) (value : Expr → Machine σ → Evaluated σ Binary64) : Prop :=
  ∀ (expr : Expr) (first second : Machine σ), (∀ name ∈ expr.freeNames, Counts name) →
    first.AgreesOn Counts second → (value expr first).AgreesOn Counts (value expr second)

section Steps

variable {Counts : String → Prop} {value : Expr → Machine σ → Evaluated σ Binary64}
  (each : SeesOnly Counts value)

include each

private theorem evaluateAll_agrees (exprs : List Expr) {first second : Machine σ}
    (counted : ∀ name ∈ freeNamesAll exprs, Counts name) (agrees : first.AgreesOn Counts second) :
    (evaluateAll value exprs first).AgreesOn Counts (evaluateAll value exprs second) := by
  induction exprs generalizing first second with
  | nil => exact .same agrees _
  | cons expr rest ih =>
    obtain ⟨head, tail⟩ := List.forall_mem_append.mp counted
    rw [evaluateAll_cons, evaluateAll_cons]
    apply (each expr first second head agrees).andThen
    intro x before other agrees
    apply (ih tail agrees).andThen
    intro more before other agrees
    exact .same agrees _

variable (undisturbed : ∀ expr (machine : Machine σ), machine.Undisturbed (value expr machine).2)

include undisturbed

/-- A body is evaluated on two different stacks, but under the same scope. -/
private theorem within_agrees (scope : Scope) (body : Expr) {first second : Machine σ}
    (counted : ∀ name ∈ body.freeNames, Counts name) (agrees : first.AgreesOn Counts second) :
    (first.within scope (value body)).AgreesOn Counts (second.within scope (value body)) := by
  have inside := each body _ _ counted (agrees.enter scope)
  have closed := (undisturbed body (first.enter scope)).leave?
  have other := (undisturbed body (second.enter scope)).leave?
  simp only [Machine.within, closed, other]
  exact ⟨inside.result, agrees.leave inside.machine⟩

private theorem applyAfresh_agrees (builtins : Table (Builtin σ)) (name : String)
    (args : List Binary64) {first second : Machine σ} (agrees : first.AgreesOn Counts second) :
    (applyAfresh builtins value name args first).AgreesOn Counts
      (applyAfresh builtins value name args second) := by
  cases given : builtins.get? name with
  | some builtin =>
    by_cases arity : builtin.arity = args.length
    · rw [applyAfresh_of_builtin given arity, applyAfresh_of_builtin given arity, agrees.hidden]
      exact .same (agrees.withHidden _) _
    · rw [applyAfresh_of_arity given arity, applyAfresh_of_arity given arity]
      exact .same agrees _
  | none =>
    cases defined : first.session.functions.get? name with
    | none =>
      have also := (congrArg (·.get? name) agrees.functions).trans defined
      rw [applyAfresh_of_undefined given defined, applyAfresh_of_undefined given also]
      exact .same agrees _
    | some clauses =>
      have also := (congrArg (·.get? name) agrees.functions).trans defined
      rcases selected : Clause.select? clauses args with _ | ⟨scope, body⟩
      · rw [applyAfresh_of_noMatch given defined selected,
          applyAfresh_of_noMatch given also selected]
        exact .same agrees _
      · rw [applyAfresh_of_clause given defined selected,
          applyAfresh_of_clause given also selected]
        apply within_agrees each undisturbed scope body _ agrees
        intro free member
        exact agrees.mentioned free (Session.mentions_of_select? defined selected member)

private theorem apply_agrees (builtins : Table (Builtin σ)) (name : String) (args : List Binary64)
    {first second : Machine σ} (agrees : first.AgreesOn Counts second) :
    (apply builtins value name args first).AgreesOn Counts
      (apply builtins value name args second) := by
  cases cached : first.session.cache.find? (.ofCall name args) with
  | some result =>
    have also := (congrArg (·.find? (.ofCall name args)) agrees.cache).trans cached
    rw [apply_of_present cached, apply_of_present also]
    exact .same agrees _
  | none =>
    have also := (congrArg (·.find? (.ofCall name args)) agrees.cache).trans cached
    rw [apply_of_absent cached, apply_of_absent also]
    apply (applyAfresh_agrees each undisturbed builtins name args agrees).andThen
    intro result before other agrees
    exact .same (agrees.remember _ result) _

end Steps

/-- Within any number of frames nothing else is seen. The induction is on the frames: the bodies
that a call evaluates are no parts of the expression, but have fewer frames. -/
theorem evaluate_seesOnly (builtins : Table (Builtin σ)) (Counts : String → Prop) (frames : Nat) :
    SeesOnly Counts (evaluate builtins frames) := by
  induction frames using Nat.strongRecOn with
  | ind frames ih =>
    intro expr first second counted agrees
    match frames, expr with
    | 0, _ => exact .same agrees _
    | _ + 1, .number value _ => exact .same agrees _
    | _ + 1, .var name _ =>
      have visible := agrees.values name (counted name (by simp [freeNames]))
      rw [evaluate, evaluate, visible]
      cases first.session.environment.find? name <;> exact .same agrees _
    | frames + 1, .binary op left right _ =>
      obtain ⟨lefts, rights⟩ := List.forall_mem_append.mp counted
      rw [evaluate_binary, evaluate_binary]
      apply (ih frames (by omega) left first second lefts agrees).andThen
      intro x before other agrees
      apply (ih frames (by omega) right before other rights agrees).andThen
      intro y before other agrees
      exact .same agrees _
    | _ + 1, .unary (.other _) _ _ => exact .same agrees _
    | frames + 1, .unary .neg operand _ =>
      rw [evaluate_neg, evaluate_neg]
      apply (ih frames (by omega) operand first second counted agrees).andThen
      intro x before other agrees
      exact .same agrees _
    | 1, .call _ _ _ => exact .same agrees _
    | 2, .call _ _ _ => exact .same agrees _
    | inner + 3, .call name args _ =>
      have bodies := ih inner (by omega)
      rw [evaluate_call, evaluate_call]
      apply (evaluateAll_agrees bodies args counted agrees).andThen
      intro values before other agrees
      exact apply_agrees bodies (fun expr machine =>
        (Guarantee.evaluate_undisturbed builtins inner expr machine).moves) builtins name values
        agrees
    | _ + 1, .foreign _ _ => exact .same agrees _

/-- An evaluation depends on the scopes only through the names that are mentioned. Two machines with
the same functions, results and hidden state whose stacks of scopes, however deep, give the same
value or none to every name in the expression or in the body of a clause, evaluate the expression
with the same outcome, be it a value or a failure, and end with the same results and the same hidden
state. -/
theorem evaluate_eq_of_mentioned (builtins : Table (Builtin σ)) (frames : Nat) (expr : Expr)
    (first second : Machine σ) (functions : second.session.functions = first.session.functions)
    (cache : second.session.cache = first.session.cache) (hidden : second.hidden = first.hidden)
    (visible : ∀ name, name ∈ expr.freeNames ∨ first.session.Mentions name →
      second.session.environment.find? name = first.session.environment.find? name) :
    (expr.evaluate builtins frames second).1 = (expr.evaluate builtins frames first).1 ∧
      (expr.evaluate builtins frames second).2.session.cache =
        (expr.evaluate builtins frames first).2.session.cache ∧
      (expr.evaluate builtins frames second).2.hidden =
        (expr.evaluate builtins frames first).2.hidden := by
  have agrees : first.AgreesOn (fun name => name ∈ expr.freeNames ∨ first.session.Mentions name)
      second := ⟨functions, cache, hidden, visible, fun _ => .inr⟩
  have ended := evaluate_seesOnly builtins _ frames expr first second (fun _ => .inl) agrees
  exact ⟨ended.result, ended.machine.cache, ended.machine.hidden⟩

end Expr

/-- A function whose body uses a name that is not its parameter, and a constant for that name. -/
def openSession : Session :=
  { environment := { globals := ⟨[("x", .ofInt 1), ("unused", .ofInt 5)]⟩ }
    functions := ⟨[("f", [⟨[.bind "y"],
      .binary .add (.var "y" none) (.var "x" none) none⟩])]⟩ }

/-- The same function below two open scopes, the inner one of which hides another value. -/
def nestedSession : Session :=
  { openSession with
    environment :=
      { locals := [⟨[("x", .ofInt 1)]⟩, ⟨[("x", .ofInt 7), ("other", .ofInt 3)]⟩]
        globals := ⟨[("x", .ofInt 9)]⟩ } }

/-- A call of the function, with the argument under the same name. -/
def openCall : Expr :=
  .call "f" [.var "x" none] none

/-- The call has the same value on both stacks, since only the innermost `x` counts. -/
theorem open_call_same_on_both_stacks :
    (openCall.evaluate {} 9 ⟨nestedSession, ()⟩).1.toOption = some (.ofInt 2) ∧
      (openCall.evaluate {} 9 ⟨nestedSession, ()⟩).2.session.cache =
        (openCall.evaluate {} 9 ⟨openSession, ()⟩).2.session.cache := by
  have value : (openCall.evaluate {} 9 ⟨openSession, ()⟩).1.toOption = some (.ofInt 2) := by
    decide +kernel
  have listed : ∀ name ∈ ["y", "x"],
      nestedSession.environment.find? name = openSession.environment.find? name := by
    decide +kernel
  have visible : ∀ name, name ∈ openCall.freeNames ∨ openSession.Mentions name →
      nestedSession.environment.find? name = openSession.environment.find? name := by
    rintro name (member | ⟨function, clause, present, member⟩)
    · exact listed name (List.mem_cons_of_mem "y" member)
    · by_cases same : function = "f"
      · subst same
        obtain rfl := List.mem_singleton.mp present
        exact listed name member
      · have unequal : (function == "f") = false := by simpa using same
        simp [Session.clauses, openSession, Table.get?, List.lookup_cons, unequal] at present
  obtain ⟨result, cache, -⟩ := openCall.evaluate_eq_of_mentioned {} 9 ⟨openSession, ()⟩
    ⟨nestedSession, ()⟩ rfl rfl rfl visible
  exact ⟨result ▸ value, cache⟩

end Calculator

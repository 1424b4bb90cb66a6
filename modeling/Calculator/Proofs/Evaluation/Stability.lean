import Calculator.Proofs.Evaluation.Guarantee
import Calculator.Proofs.Session.Selection

namespace Calculator

variable {σ α β : Type}

/-- The answer of the builtin depends on its arguments alone. -/
def Builtin.Pure (builtin : Builtin σ) : Prop :=
  ∀ args hidden other, (builtin.run args hidden).1 = (builtin.run args other).1

def Builtin.AllPure (builtins : Table (Builtin σ)) : Prop :=
  ∀ name builtin, builtins.get? name = some builtin → builtin.Pure

/-- Every function of the first table is in the second, with further clauses at most. -/
def FunctionsExtend (older newer : Table (List Clause)) : Prop :=
  ∀ name clauses, older.get? name = some clauses →
    ∃ more, newer.get? name = some (clauses ++ more)

theorem FunctionsExtend.refl (functions : Table (List Clause)) :
    FunctionsExtend functions functions :=
  fun _ clauses defined => ⟨[], by rw [defined, List.append_nil]⟩

theorem FunctionsExtend.trans {older middle newer : Table (List Clause)}
    (early : FunctionsExtend older middle) (late : FunctionsExtend middle newer) :
    FunctionsExtend older newer := by
  intro name clauses defined
  obtain ⟨more, defined⟩ := early name clauses defined
  obtain ⟨others, defined⟩ := late name (clauses ++ more) defined
  exact ⟨more ++ others, by rw [defined, List.append_assoc]⟩

theorem Session.functionsExtend_appendClause (session : Session) (name : String)
    (clause : Clause) :
    FunctionsExtend session.functions (session.appendClause name clause).functions := by
  intro other clauses defined
  by_cases same : other = name
  · subst same
    refine ⟨[clause], ?_⟩
    simp [Session.appendClause, Session.clauses, defined]
  · refine ⟨[], ?_⟩
    rw [List.append_nil, ← defined]
    exact Table.get?_set_of_ne _ same _

/-- The session stays as it was, results included. -/
def Guarantee.sessionKept : Guarantee σ where
  Moves before after := after.session = before.session
  refl _ := rfl
  trans early late := late.trans early
  hidden _ _ := rfl
  leaves {scope machine after} moved := by
    refine ⟨{ machine with hidden := after.hidden }, ?_, rfl⟩
    simp only [Machine.leave?, moved, Machine.enter, Environment.leave?_enter]

/-- A value of the first outcome is the value of the second too. -/
def Evaluated.Upholds (older newer : Evaluated σ α) : Prop :=
  ∀ result, older.1 = .ok result → newer.1 = .ok result

theorem Evaluated.Upholds.andThen {older newer : Evaluated σ α} (first : older.Upholds newer)
    {next next' : α → Machine σ → Evaluated σ β}
    (second : ∀ value, (next value older.2).Upholds (next' value newer.2)) :
    (older.andThen next).Upholds (newer.andThen next') := by
  rcases older with ⟨failure | value, before⟩
  · intro result found
    cases found
  · have same := first value rfl
    rcases newer with ⟨failure | other, after⟩
    · cases same
    · cases same
      exact second value

namespace Machine

/-- The second machine has every function of the first and the same values under the names. -/
structure Extends (names : List String) (older newer : Machine σ) : Prop where
  functions : FunctionsExtend older.session.functions newer.session.functions
  values : ∀ name ∈ names,
    newer.session.environment.find? name = older.session.environment.find? name

theorem Extends.weaken {names fewer : List String} {older newer older' newer' : Machine σ}
    (extended : Extends names older newer) (subset : ∀ name ∈ fewer, name ∈ names)
    (first : older'.session = older.session) (second : newer'.session = newer.session) :
    Extends fewer older' newer' := by
  constructor
  · rw [first, second]
    exact extended.functions
  · intro name member
    rw [first, second]
    exact extended.values name (subset name member)

end Machine

namespace Expr

theorem evaluateAfresh_session (builtins : Table (Builtin σ)) (frames : Nat) (expr : Expr)
    (machine : Machine σ) :
    (expr.evaluateAfresh builtins frames machine).2.session = machine.session := by
  have kept : Guarantee.sessionKept.Kept machine (expr.evaluateAfresh builtins frames machine) :=
    Guarantee.evaluateAfresh_kept builtins frames expr machine
  exact kept.moves

theorem evaluateAll_evaluateAfresh_session (builtins : Table (Builtin σ)) (frames : Nat)
    (exprs : List Expr) (machine : Machine σ) :
    (evaluateAll (evaluateAfresh builtins frames) exprs machine).2.session = machine.session := by
  have kept : Guarantee.sessionKept.Kept machine
      (evaluateAll (evaluateAfresh builtins frames) exprs machine) :=
    Guarantee.evaluateAll_kept (Guarantee.evaluateAfresh_kept builtins frames) exprs machine
  exact kept.moves

variable {builtins : Table (Builtin σ)}

theorem within_evaluateAfresh_fst (frames : Nat) (body : Expr) (scope : Scope)
    (machine : Machine σ) :
    (machine.within scope (body.evaluateAfresh builtins frames)).1 =
      (body.evaluateAfresh builtins frames (machine.enter scope)).1 := by
  have still := evaluateAfresh_session builtins frames body (machine.enter scope)
  obtain ⟨left, closed, -⟩ := Guarantee.sessionKept.leaves still
  rcases ran : body.evaluateAfresh builtins frames (machine.enter scope) with ⟨result, after⟩
  rw [ran] at closed
  simp only [Machine.within, ran, closed]

variable (builtins) in
/-- Within these frames values outlast further clauses and scopes out of sight. -/
def ValuesStable (frames : Nat) : Prop :=
  ∀ (expr : Expr) (older newer : Machine σ), older.session.Closed →
    older.Extends expr.freeNames newer →
    (expr.evaluateAfresh builtins frames older).Upholds (expr.evaluateAfresh builtins frames newer)

/-- A call of closed functions that has a value keeps it when clauses are added, whatever the
scopes are. -/
theorem applyAfresh_upholds (pure : Builtin.AllPure builtins) {frames : Nat}
    (bodies : ValuesStable builtins frames) {older newer : Machine σ}
    (closed : older.session.Closed)
    (extended : FunctionsExtend older.session.functions newer.session.functions) (name : String)
    (args : List Binary64) :
    (applyAfresh builtins (evaluateAfresh builtins frames) name args older).Upholds
      (applyAfresh builtins (evaluateAfresh builtins frames) name args newer) := by
  intro result found
  cases given : builtins.get? name with
  | some builtin =>
    by_cases arity : builtin.arity = args.length
    · rw [applyAfresh_of_builtin given arity] at found ⊢
      rwa [pure name builtin given args newer.hidden older.hidden]
    · rw [applyAfresh_of_arity given arity] at found
      cases found
  | none =>
    cases defined : older.session.functions.get? name with
    | none =>
      rw [applyAfresh_of_undefined given defined] at found
      cases found
    | some clauses =>
      obtain ⟨more, grown⟩ := extended name clauses defined
      rcases selected : Clause.select? clauses args with _ | ⟨scope, body⟩
      · rw [applyAfresh_of_noMatch given defined selected] at found
        cases found
      · -- the clause that answered is still the first one to accept the arguments
        have still : Clause.select? (clauses ++ more) args = some (scope, body) := by
          rw [Clause.select?_append, selected, Option.some_or]
        rw [applyAfresh_of_clause given defined selected, within_evaluateAfresh_fst] at found
        rw [applyAfresh_of_clause given grown still, within_evaluateAfresh_fst]
        have visible : (older.enter scope).Extends body.freeNames (newer.enter scope) :=
          ⟨extended, fun free member => closed.find?_enter defined selected member _ _⟩
        exact bodies body (older.enter scope) (newer.enter scope) closed visible result found

private theorem evaluateAll_upholds {frames : Nat} (each : ValuesStable builtins frames)
    (exprs : List Expr) {older newer : Machine σ} (closed : older.session.Closed)
    (extended : older.Extends (freeNamesAll exprs) newer) :
    (evaluateAll (evaluateAfresh builtins frames) exprs older).Upholds
      (evaluateAll (evaluateAfresh builtins frames) exprs newer) := by
  induction exprs generalizing older newer with
  | nil => exact fun _ found => found
  | cons expr rest ih =>
    have first := evaluateAfresh_session builtins frames expr older
    have second := evaluateAfresh_session builtins frames expr newer
    have head : ∀ name ∈ expr.freeNames, name ∈ freeNamesAll (expr :: rest) := by
      intro name member
      simp [freeNamesAll, member]
    have tail : ∀ name ∈ freeNamesAll rest, name ∈ freeNamesAll (expr :: rest) := by
      intro name member
      simp [freeNamesAll, member]
    rw [evaluateAll_cons, evaluateAll_cons]
    apply (each expr older newer closed (extended.weaken head rfl rfl)).andThen
    intro value
    apply (ih (by rwa [first]) (extended.weaken tail first second)).andThen
    intro values result found
    exact found

/-- With pure builtins and closed clauses every value is stable. -/
theorem valuesStable (pure : Builtin.AllPure builtins) (frames : Nat) :
    ValuesStable builtins frames := by
  induction frames using Nat.strongRecOn with
  | ind frames ih =>
    intro expr older newer closed extended
    match frames, expr with
    | 0, _ =>
      intro result found
      cases found
    | _ + 1, .number value _ => exact fun _ found => found
    | _ + 1, .var name _ =>
      have same := extended.values name (by simp [freeNames])
      intro result found
      simp only [evaluateAfresh, evaluateWith, same] at found ⊢
      cases value : older.session.environment.find? name with
      | none => simp [value] at found
      | some x => simpa [value] using found
    | frames + 1, .binary op left right _ =>
      have shallower := ih frames (by omega)
      have first := evaluateAfresh_session builtins frames left older
      have second := evaluateAfresh_session builtins frames left newer
      have lefts : ∀ name ∈ left.freeNames, name ∈ left.freeNames ++ right.freeNames :=
        fun name member => List.mem_append_left _ member
      have rights : ∀ name ∈ right.freeNames, name ∈ left.freeNames ++ right.freeNames :=
        fun name member => List.mem_append_right _ member
      apply (shallower left older newer closed (extended.weaken lefts rfl rfl)).andThen
      intro x
      apply (shallower right _ _ (by rwa [first]) (extended.weaken rights first second)).andThen
      intro y result found
      exact found
    | _ + 1, .unary (.other _) _ _ =>
      intro result found
      cases found
    | frames + 1, .unary .neg operand _ =>
      apply (ih frames (by omega) operand older newer closed
        (extended.weaken (fun _ member => member) rfl rfl)).andThen
      intro x result found
      exact found
    | 1, .call _ _ _ =>
      intro result found
      cases found
    | 2, .call _ _ _ =>
      intro result found
      cases found
    | inner + 3, .call name args _ =>
      have bodies := ih inner (by omega)
      have first := evaluateAll_evaluateAfresh_session builtins inner args older
      have second := evaluateAll_evaluateAfresh_session builtins inner args newer
      apply (evaluateAll_upholds bodies args closed
        (extended.weaken (fun _ member => member) rfl rfl)).andThen
      intro values
      apply applyAfresh_upholds pure bodies
      · exact first ▸ closed
      · exact first ▸ second ▸ extended.functions
    | _ + 1, .foreign _ _ =>
      intro result found
      cases found

end Expr

end Calculator

import Calculator.Proofs.Evaluation.Calls
import Calculator.Proofs.Evaluation.Stability
import Calculator.Proofs.Frames

/-! Remembered results cannot be told from computed ones, as long as builtins are pure, clauses are
closed and no argument is a negative zero: every result in memory is what its call gives when it is
computed anew, and every answer is the answer of an evaluation that remembers nothing. -/

namespace Calculator

variable {σ α β : Type} {builtins : Table (Builtin σ)}

/-- The call has the value when it is computed anew without a limit, from any scopes. -/
def Call.Yields (builtins : Table (Builtin σ)) (functions : Table (List Clause)) (call : Call)
    (result : Binary64) : Prop :=
  Eventually fun frames => ∀ machine : Machine σ, machine.session.functions = functions →
    (Expr.applyAfresh builtins (Expr.evaluateAfresh builtins frames) call.name call.args
      machine).1 = .ok result

theorem Call.Yields.extend (pure : Builtin.AllPure builtins) {session : Session}
    (closed : session.Closed) {newer : Table (List Clause)}
    (extended : FunctionsExtend session.functions newer) {call : Call} {result : Binary64}
    (yields : call.Yields builtins session.functions result) :
    call.Yields builtins newer result := by
  apply yields.mono
  intro frames computed machine same
  -- the same machine before the clauses were added
  let older : Machine σ :=
    { machine with session := { machine.session with functions := session.functions } }
  have unchanged : older.session.Closed := closed
  rw [← same] at extended
  exact Expr.applyAfresh_upholds pure (Expr.valuesStable pure frames) unchanged extended
    call.name call.args result (computed older rfl)

/-- Every remembered result is the value of its call when it is computed anew without a limit, from
any scopes. -/
def Session.Faithful (builtins : Table (Builtin σ)) (session : Session) : Prop :=
  ∀ key result, session.cache.find? key = some result →
    Eventually fun frames => ∀ machine : Machine σ,
      machine.session.functions = session.functions →
        (Expr.applyAfresh builtins (Expr.evaluateAfresh builtins frames) key.name key.args
          machine).1 = .ok result

/-- The machines have the same scopes and functions. -/
structure Machine.Alike (first second : Machine σ) : Prop where
  environment : second.session.environment = first.session.environment
  functions : second.session.functions = first.session.functions

/-- An outcome leaves a faithful memory, and unless frames ran out it is the outcome of the
computation that remembers nothing. -/
structure Mirrored (builtins : Table (Builtin σ)) (afresh : Nat → Machine σ → Evaluated σ α)
    (before : Machine σ) (outcome : Evaluated σ α) : Prop where
  undisturbed : before.Undisturbed outcome.2
  faithful : outcome.2.session.Faithful builtins
  reproduced : outcome.1 ≠ .error (.because .stackLimit) →
    Eventually fun frames => ∀ other, before.Alike other → (afresh frames other).1 = outcome.1

namespace Session.Faithful

theorem of_eq {session session' : Session} (faithful : session.Faithful builtins)
    (cache : session'.cache = session.cache) (functions : session'.functions = session.functions) :
    session'.Faithful builtins := by
  intro key result cached
  rw [cache] at cached
  rw [functions]
  exact faithful key result cached

/-- A further clause turns failures into values at most, so no result becomes wrong; results of the
function may be forgotten. -/
theorem appendClause (pure : Builtin.AllPure builtins) {session : Session}
    (closed : session.Closed) (faithful : session.Faithful builtins) (name : String)
    (clause : Clause) :
    (session.appendClause name clause).Faithful builtins := by
  intro key result cached
  have earlier : session.cache.find? key = some result := by
    simp only [Session.appendClause, ResultCache.redefined] at cached
    split at cached
    · exact cached
    · rw [ResultCache.find?_forget] at cached
      split at cached
      · cases cached
      · exact cached
  have yields : Call.Yields builtins session.functions ⟨key.name, key.args⟩ result :=
    faithful key result earlier
  exact yields.extend pure closed (session.functionsExtend_appendClause name clause)

theorem remember (pure : Builtin.AllPure builtins) {machine after : Machine σ}
    (closed : machine.session.Closed)
    (functions : after.session.functions = machine.session.functions)
    (faithful : after.session.Faithful builtins) {name : String} {args : List Binary64}
    {result : Binary64}
    (computed : Eventually fun frames =>
      (Expr.applyAfresh builtins (Expr.evaluateAfresh builtins frames) name args machine).1 =
        .ok result) :
    (after.remember ⟨name, args⟩ result).session.Faithful builtins := by
  intro key other cached
  by_cases same : key = ⟨name, args⟩
  · subst same
    have stored : result = other := by
      simpa [Machine.remember, Session.remember] using cached
    subst stored
    apply computed.mono
    intro frames found elsewhere alike
    have extended : FunctionsExtend machine.session.functions elsewhere.session.functions := by
      rw [show elsewhere.session.functions = machine.session.functions from
        alike.trans functions]
      exact .refl _
    exact Expr.applyAfresh_upholds pure (Expr.valuesStable pure frames) closed extended name args
      result found
  · have earlier : after.session.cache.find? key = some other := by
      rw [← cached]
      exact (ResultCache.find?_insert_of_ne _ same result).symm
    exact faithful key other earlier

end Session.Faithful

namespace Mirrored

variable {afresh : Nat → Machine σ → Evaluated σ α}

theorem still {machine : Machine σ} (faithful : machine.session.Faithful builtins)
    {result : Except Failure α}
    (reproduced : result ≠ .error (.because .stackLimit) →
      ∀ frames other, machine.Alike other → (afresh (frames + 1) other).1 = result) :
    Mirrored builtins afresh machine (result, machine) := by
  refine ⟨.refl machine, faithful, fun finished => ?_⟩
  exact (Eventually.always fun _ => trivial).deeper 1 fun frames _ => reproduced finished frames

theorem limit {machine : Machine σ} (faithful : machine.session.Faithful builtins) :
    Mirrored builtins afresh machine (.error (.because .stackLimit), machine) :=
  .still faithful fun finished => absurd rfl finished

theorem deeper {before : Machine σ} {outcome : Evaluated σ α}
    (mirrored : Mirrored builtins afresh before outcome) (spent : Nat)
    {afresh' : Nat → Machine σ → Evaluated σ α}
    (same : ∀ frames other, afresh' (frames + spent) other = afresh frames other) :
    Mirrored builtins afresh' before outcome := by
  refine ⟨mirrored.undisturbed, mirrored.faithful, fun finished => ?_⟩
  apply (mirrored.reproduced finished).deeper spent
  intro frames reproduced other alike
  rw [same]
  exact reproduced other alike

theorem andThen {before : Machine σ} {outcome : Evaluated σ α}
    (first : Mirrored builtins afresh before outcome)
    (kept : ∀ frames other, (afresh frames other).2.session = other.session)
    {next : α → Machine σ → Evaluated σ β} {nextAfresh : Nat → α → Machine σ → Evaluated σ β}
    (second : ∀ value middle, outcome = (.ok value, middle) → before.Undisturbed middle →
      middle.session.Faithful builtins →
      Mirrored builtins (fun frames => nextAfresh frames value) middle (next value middle)) :
    Mirrored builtins (fun frames other => (afresh frames other).andThen (nextAfresh frames))
      before (outcome.andThen next) := by
  rcases outcome with ⟨failure | value, middle⟩
  · refine ⟨first.undisturbed, first.faithful, fun finished => ?_⟩
    apply (first.reproduced (by simpa using finished)).mono
    intro frames reproduced other alike
    have failed := reproduced other alike
    rcases ran : afresh frames other with ⟨failure' | value, after⟩ <;> rw [ran] at failed
    · cases failed
      rfl
    · cases failed
  · have rest := second value middle rfl first.undisturbed first.faithful
    refine ⟨first.undisturbed.trans rest.undisturbed, rest.faithful, fun finished => ?_⟩
    apply ((first.reproduced (by simp)).and (rest.reproduced finished)).mono
    rintro frames ⟨reproduced, continued⟩ other alike
    have found := reproduced other alike
    have unmoved := kept frames other
    rcases ran : afresh frames other with ⟨failure | value', after⟩ <;> rw [ran] at found unmoved
    · cases found
    · cases found
      apply continued
      constructor
      · rw [unmoved, alike.environment, first.undisturbed.environment]
      · rw [unmoved, alike.functions, first.undisturbed.functions]

end Mirrored

namespace Expr

variable (builtins) in
/-- Within these frames evaluation mirrors evaluation that remembers nothing. -/
def MirroredWithin (frames : Nat) : Prop :=
  ∀ (expr : Expr) (machine : Machine σ), machine.session.Closed →
    machine.session.Faithful builtins →
    (∀ call ∈ expr.calls builtins frames machine, call.Signless) →
    Mirrored builtins (fun more => expr.evaluateAfresh builtins more) machine
      (expr.evaluate builtins frames machine)

theorem evaluateAll_mirrored {frames : Nat} (each : MirroredWithin builtins frames)
    (exprs : List Expr) {machine : Machine σ} (closed : machine.session.Closed)
    (faithful : machine.session.Faithful builtins)
    (signless : ∀ call ∈ callsAll (evaluate builtins frames) (calls builtins frames) exprs machine,
      call.Signless) :
    Mirrored builtins (fun more => evaluateAll (evaluateAfresh builtins more) exprs) machine
      (evaluateAll (evaluate builtins frames) exprs machine) := by
  induction exprs generalizing machine with
  | nil => exact .still faithful fun _ _ _ _ => rfl
  | cons expr rest ih =>
    have first := each expr machine closed faithful fun call member =>
      signless call (List.mem_append_left _ member)
    rw [evaluateAll_cons]
    refine Mirrored.deeper ?_ 0 fun more other => evaluateAll_cons _ expr rest other
    apply first.andThen fun more other => evaluateAfresh_session builtins more expr other
    intro value middle ran undisturbed faithful
    have others := ih (closed.of_eq undisturbed.functions) faithful fun call member =>
      signless call (List.mem_append_right _ (by rw [ran]; exact member))
    apply others.andThen fun more other =>
      evaluateAll_evaluateAfresh_session builtins more rest other
    intro values after _ _ faithful
    exact .still faithful fun _ _ _ _ => rfl

private theorem within_mirrored {frames : Nat} (bodies : MirroredWithin builtins frames)
    {machine : Machine σ} (closed : machine.session.Closed)
    (faithful : machine.session.Faithful builtins) (scope : Scope) (body : Expr)
    (signless : ∀ call ∈ body.calls builtins frames (machine.enter scope), call.Signless) :
    Mirrored builtins
      (fun more other => other.within scope (body.evaluateAfresh builtins more)) machine
      (machine.within scope (body.evaluate builtins frames)) := by
  have inside := bodies body (machine.enter scope) closed faithful signless
  rcases ran : body.evaluate builtins frames (machine.enter scope) with ⟨result, after⟩
  rw [ran] at inside
  have left := inside.undisturbed.leave?
  have whole : machine.within scope (body.evaluate builtins frames) =
      (result, after.withEnvironment machine.session.environment) := by
    simp only [Machine.within, ran, left]
  rw [whole]
  refine ⟨inside.undisturbed.leave, inside.faithful, fun finished => ?_⟩
  apply (inside.reproduced finished).mono
  intro more reproduced other alike
  rw [within_evaluateAfresh_fst]
  apply reproduced
  constructor
  · simp only [Machine.enter, alike.environment]
  · exact alike.functions

/-- A call that is computed anew, its body being evaluated with a memory. -/
private theorem applyAfresh_mirrored (pure : Builtin.AllPure builtins) {frames : Nat}
    (bodies : MirroredWithin builtins frames) {machine : Machine σ}
    (closed : machine.session.Closed) (faithful : machine.session.Faithful builtins) (name : String)
    (args : List Binary64) (absent : machine.session.cache.find? (.ofCall name args) = none)
    (signless : ∀ call ∈ callsWithin builtins (calls builtins frames) name args machine,
      call.Signless) :
    Mirrored builtins (fun more => applyAfresh builtins (evaluateAfresh builtins more) name args)
      machine (applyAfresh builtins (evaluate builtins frames) name args machine) := by
  cases given : builtins.get? name with
  | some builtin =>
    by_cases arity : builtin.arity = args.length
    · rw [applyAfresh_of_builtin given arity]
      refine ⟨⟨rfl, rfl, rfl, rfl⟩, faithful, fun _ => .always fun more other _ => ?_⟩
      rw [applyAfresh_of_builtin given arity,
        pure name builtin given args other.hidden machine.hidden]
    · rw [applyAfresh_of_arity given arity]
      exact .still faithful fun _ _ _ _ => by rw [applyAfresh_of_arity given arity]
  | none =>
    cases defined : machine.session.functions.get? name with
    | none =>
      rw [applyAfresh_of_undefined given defined]
      apply Mirrored.still faithful
      intro _ more other alike
      rw [applyAfresh_of_undefined given (by rw [alike.functions, defined])]
    | some clauses =>
      rcases selected : Clause.select? clauses args with _ | ⟨scope, body⟩
      · rw [applyAfresh_of_noMatch given defined selected]
        apply Mirrored.still faithful
        intro _ more other alike
        rw [applyAfresh_of_noMatch given (by rw [alike.functions, defined]) selected]
      · simp only [callsWithin, absent, given, defined, Option.bind_some, selected] at signless
        have inside := within_mirrored bodies closed faithful scope body signless
        rw [applyAfresh_of_clause given defined selected]
        refine ⟨inside.undisturbed, inside.faithful, fun finished => ?_⟩
        apply (inside.reproduced finished).mono
        intro more reproduced other alike
        rw [applyAfresh_of_clause given (by rw [alike.functions, defined]) selected]
        exact reproduced other alike

/-- A remembered result is the one that a new computation finds, and a new result may be
remembered. -/
theorem apply_mirrored (pure : Builtin.AllPure builtins) {frames : Nat}
    (bodies : MirroredWithin builtins frames) {machine : Machine σ}
    (closed : machine.session.Closed) (faithful : machine.session.Faithful builtins)
    {name : String} {args : List Binary64} (plain : Call.Signless ⟨name, args⟩)
    (signless : ∀ call ∈ callsWithin builtins (calls builtins frames) name args machine,
      call.Signless) :
    Mirrored builtins (fun more => applyAfresh builtins (evaluateAfresh builtins more) name args)
      machine (apply builtins (evaluate builtins frames) name args machine) := by
  have key : CallKey.ofCall name args = ⟨name, args⟩ := CallKey.ofCall_of_ne plain
  cases remembered : machine.session.cache.find? (.ofCall name args) with
  | some result =>
    rw [apply_of_present remembered]
    refine ⟨.refl machine, faithful, fun _ => ?_⟩
    rw [key] at remembered
    apply (faithful _ result remembered).mono
    intro more computed other alike
    exact computed other alike.functions
  | none =>
    have anew := applyAfresh_mirrored pure bodies closed faithful name args remembered signless
    rw [apply_of_absent remembered, key]
    rcases ran : applyAfresh builtins (evaluate builtins frames) name args machine with
      ⟨failure | result, after⟩ <;> rw [ran] at anew
    · exact anew
    · have computed := anew.reproduced (by simp)
      refine ⟨anew.undisturbed.trans ⟨rfl, rfl, rfl, rfl⟩, ?_, fun _ => computed⟩
      apply Session.Faithful.remember pure closed anew.undisturbed.functions anew.faithful
      exact computed.mono fun more found => found machine ⟨rfl, rfl⟩

/-- With pure builtins evaluation mirrors evaluation that remembers nothing, within any frames. -/
theorem mirroredWithin (pure : Builtin.AllPure builtins) (frames : Nat) :
    MirroredWithin builtins frames := by
  induction frames using Nat.strongRecOn with
  | ind frames ih =>
    intro expr machine closed faithful signless
    match frames, expr with
    | 0, _ => exact .limit faithful
    | _ + 1, .number value _ => exact .still faithful fun _ _ _ _ => rfl
    | _ + 1, .var name _ =>
      simp only [evaluate]
      cases found : machine.session.environment.find? name with
      | some value =>
        apply Mirrored.still faithful
        intro _ more other alike
        simp only [evaluateAfresh, evaluateWith, alike.environment, found]
      | none =>
        apply Mirrored.still faithful
        intro _ more other alike
        simp only [evaluateAfresh, evaluateWith, alike.environment, found]
    | frames + 1, .binary op left right _ =>
      have shallower := ih frames (by omega)
      rw [evaluate_binary]
      refine Mirrored.deeper ?_ 1 fun more other => rfl
      apply (shallower left machine closed faithful fun call member =>
        signless call (List.mem_append_left _ member)).andThen
        fun more other => evaluateAfresh_session builtins more left other
      intro x middle ran undisturbed faithful
      have later : ∀ call ∈ right.calls builtins frames middle, call.Signless :=
        fun call member => signless call (List.mem_append_right _ (by rw [ran]; exact member))
      apply (shallower right middle (closed.of_eq undisturbed.functions) faithful later).andThen
        fun more other => evaluateAfresh_session builtins more right other
      intro y after _ _ faithful
      exact .still faithful fun _ _ _ _ => rfl
    | _ + 1, .unary (.other _) _ _ => exact .still faithful fun _ _ _ _ => rfl
    | frames + 1, .unary .neg operand _ =>
      rw [evaluate_neg]
      refine Mirrored.deeper ?_ 1 fun more other => rfl
      apply (ih frames (by omega) operand machine closed faithful signless).andThen
        fun more other => evaluateAfresh_session builtins more operand other
      intro x after _ _ faithful
      exact .still faithful fun _ _ _ _ => rfl
    | 1, .call _ _ _ => exact .limit faithful
    | 2, .call _ _ _ => exact .limit faithful
    | inner + 3, .call name args _ =>
      have bodies := ih inner (by omega)
      rw [evaluate_call]
      refine Mirrored.deeper ?_ 3 fun more other => rfl
      apply (evaluateAll_mirrored bodies args closed faithful fun call member =>
        signless call (List.mem_append_left _ member)).andThen
        fun more other => evaluateAll_evaluateAfresh_session builtins more args other
      intro values middle ran undisturbed faithful
      have begun : ∀ call ∈ ⟨name, values⟩ ::
          callsWithin builtins (calls builtins inner) name values middle, call.Signless :=
        fun call member => signless call (List.mem_append_right _ (by rw [ran]; exact member))
      exact apply_mirrored pure bodies (closed.of_eq undisturbed.functions) faithful
        (begun _ List.mem_cons_self) fun call member => begun call (List.mem_cons_of_mem _ member)
    | _ + 1, .foreign _ _ => exact .still faithful fun _ _ _ _ => rfl

end Expr

end Calculator

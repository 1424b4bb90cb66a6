import Calculator.Proofs.Evaluation.Run
import Calculator.Proofs.Session.Acceptance

/-! How a call finds what it calls. A call asks earlier results before it looks for a builtin or for
a clause, yet no result is ever kept under a key that neither of them would take: so a call fails to
be dispatched exactly when the builtins and the functions say so, whatever is remembered. -/

namespace Calculator

variable {σ α β : Type} {builtins : Table (Builtin σ)}

/-- There is something to call: a builtin of that many arguments or, where the name is no builtin,
a clause that accepts the arguments. -/
inductive Answerable (builtins : Table (Builtin σ)) (functions : Table (List Clause))
    (name : String) (args : List Binary64) : Prop where
  | builtin {builtin : Builtin σ} :
    builtins.get? name = some builtin → builtin.arity = args.length →
      Answerable builtins functions name args
  | clause {clauses : List Clause} {clause : Clause} :
    builtins.get? name = none → functions.get? name = some clauses → clause ∈ clauses →
      clause.pattern.Accepts args → Answerable builtins functions name args

namespace Answerable

variable {functions : Table (List Clause)} {name : String} {args : List Binary64}

theorem map_dropZeroSign :
    Answerable builtins functions name (args.map Binary64.dropZeroSign) ↔
      Answerable builtins functions name args := by
  constructor
  · rintro (⟨given, arity⟩ | ⟨given, defined, member, accepts⟩)
    · exact .builtin given (by rwa [List.length_map] at arity)
    · exact .clause given defined member (Pattern.accepts_map_dropZeroSign.mp accepts)
  · rintro (⟨given, arity⟩ | ⟨given, defined, member, accepts⟩)
    · exact .builtin given (by rwa [List.length_map])
    · exact .clause given defined member (Pattern.accepts_map_dropZeroSign.mpr accepts)

theorem appendClause {session : Session}
    (answerable : Answerable builtins session.functions name args) (other : String)
    (clause : Clause) :
    Answerable builtins (session.appendClause other clause).functions name args := by
  cases answerable with
  | builtin given arity => exact .builtin given arity
  | clause given defined member accepts =>
    by_cases same : name = other
    · subst same
      apply Answerable.clause given (Table.get?_set_self _ _ _) _ accepts
      simp [Session.clauses, defined, member]
    · apply Answerable.clause given _ member accepts
      rw [← defined]
      exact Table.get?_set_of_ne _ same _

theorem of_applyAfresh {value : Expr → Machine σ → Evaluated σ Binary64} {machine : Machine σ}
    {result : Binary64}
    (computed : (Expr.applyAfresh builtins value name args machine).1 = .ok result) :
    Answerable builtins machine.session.functions name args := by
  cases given : builtins.get? name with
  | some builtin =>
    by_cases arity : builtin.arity = args.length
    · exact .builtin given arity
    · rw [Expr.applyAfresh_of_arity given arity] at computed
      cases computed
  | none =>
    cases defined : machine.session.functions.get? name with
    | none =>
      rw [Expr.applyAfresh_of_undefined given defined] at computed
      cases computed
    | some clauses =>
      rcases selected : Clause.select? clauses args with _ | ⟨scope, body⟩
      · rw [Expr.applyAfresh_of_noMatch given defined selected] at computed
        cases computed
      · obtain ⟨clause, member, accepts⟩ := Clause.exists_accepts_of_select? selected
        exact .clause given defined member accepts

end Answerable

/-- Every result belongs to a call that there is something for. -/
def Session.Dispatchable (builtins : Table (Builtin σ)) (session : Session) : Prop :=
  ∀ key result, session.cache.find? key = some result →
    Answerable builtins session.functions key.name key.args

namespace Session.Dispatchable

theorem of_eq {session session' : Session} (dispatchable : session.Dispatchable builtins)
    (cache : session'.cache = session.cache) (functions : session'.functions = session.functions) :
    session'.Dispatchable builtins := by
  intro key result cached
  rw [cache] at cached
  rw [functions]
  exact dispatchable key result cached

theorem remember {session : Session} (dispatchable : session.Dispatchable builtins)
    {name : String} {args : List Binary64}
    (answerable : Answerable builtins session.functions name args) (result : Binary64) :
    (session.remember (.ofCall name args) result).Dispatchable builtins := by
  intro key other cached
  by_cases same : key = .ofCall name args
  · subst same
    exact Answerable.map_dropZeroSign.mpr answerable
  · have earlier : session.cache.find? key = some other := by
      rw [← cached]
      exact (ResultCache.find?_insert_of_ne _ same result).symm
    exact dispatchable key other earlier

theorem appendClause {session : Session} (dispatchable : session.Dispatchable builtins)
    (name : String) (clause : Clause) :
    (session.appendClause name clause).Dispatchable builtins := by
  intro key result cached
  have earlier : session.cache.find? key = some result := by
    simp only [Session.appendClause, ResultCache.redefined] at cached
    split at cached
    · exact cached
    · rw [ResultCache.find?_forget] at cached
      split at cached
      · cases cached
      · exact cached
  exact (dispatchable key result earlier).appendClause name clause

theorem absent {session : Session} (dispatchable : session.Dispatchable builtins) {name : String}
    {args : List Binary64} (nothing : ¬Answerable builtins session.functions name args) :
    session.cache.find? (.ofCall name args) = none := by
  cases cached : session.cache.find? (.ofCall name args) with
  | none => rfl
  | some result =>
    exact absurd (Answerable.map_dropZeroSign.mp (dispatchable _ result cached)) nothing

end Session.Dispatchable

namespace Guarantee

variable (builtins) in
/-- Besides, results stay dispatchable. -/
def dispatching : Guarantee σ where
  Moves before after := before.Undisturbed after ∧
    (before.session.Dispatchable builtins → after.session.Dispatchable builtins)
  refl machine := ⟨.refl machine, fun dispatchable => dispatchable⟩
  trans early late :=
    ⟨early.1.trans late.1, fun dispatchable => late.2 (early.2 dispatchable)⟩
  hidden _ _ := ⟨⟨rfl, rfl, rfl, rfl⟩, fun dispatchable => dispatchable⟩
  leaves moved := ⟨_, moved.1.leave?, moved.1.leave, moved.2⟩

theorem evaluate_dispatching (builtins : Table (Builtin σ)) (frames : Nat) (expr : Expr)
    (machine : Machine σ) :
    (dispatching builtins).Kept machine (expr.evaluate builtins frames machine) := by
  rw [Expr.evaluate_eq_evaluateWith]
  apply evaluateWith_kept
  intro value bodies name args machine
  cases cached : machine.session.cache.find? (.ofCall name args) with
  | some result =>
    rw [Expr.apply_of_present cached]
    exact .ok result ((dispatching builtins).refl machine)
  | none =>
    have computed := applyAfresh_kept builtins bodies name args machine
    rw [Expr.apply_of_absent cached]
    rcases ran : Expr.applyAfresh builtins value name args machine with
      ⟨failure | result, after⟩ <;> rw [ran] at computed
    · exact computed
    · obtain ⟨undisturbed, kept⟩ := computed.moves
      have answerable : Answerable builtins after.session.functions name args := by
        rw [undisturbed.functions]
        exact .of_applyAfresh (by rw [ran])
      exact .ok result ⟨undisturbed.trans ⟨rfl, rfl, rfl, rfl⟩,
        fun dispatchable => (kept dispatchable).remember answerable result⟩

end Guarantee

theorem Statement.perform_dispatchable {machine : Machine σ}
    (dispatchable : machine.session.Dispatchable builtins) (frames : Nat)
    (statement : Option Statement) :
    (Statement.perform builtins frames statement machine).2.session.Dispatchable builtins := by
  have moves := Guarantee.evaluated_moves
    (Guarantee.evaluate_dispatching builtins (allowance frames statement)) statement machine
  have kept := moves.2 dispatchable
  have performed := perform_performed builtins frames statement machine
  generalize perform builtins frames statement machine = outcome at performed ⊢
  cases performed with
  | constant name expr pos result => exact kept.of_eq rfl rfl
  | clause name params body pos pattern => exact kept.appendClause name ⟨pattern, body⟩
  | _ => exact kept

namespace Interpreter

theorem serve_dispatchable {interpreter : Interpreter σ}
    (dispatchable : interpreter.session.Dispatchable interpreter.builtins) (request : Request) :
    (interpreter.serve request).session.Dispatchable interpreter.builtins := by
  have start : (interpreter.prepared request).session.Dispatchable interpreter.builtins := by
    cases request <;> exact dispatchable
  apply serve_induction (fun machine => machine.session.Dispatchable interpreter.builtins)
    interpreter request start
  intro frames statement _
  exact Statement.perform_dispatchable start frames statement

theorem serveAll_dispatchable {interpreter : Interpreter σ}
    (dispatchable : interpreter.session.Dispatchable interpreter.builtins)
    (requests : List Request) :
    (interpreter.serveAll requests).session.Dispatchable interpreter.builtins := by
  induction requests generalizing interpreter with
  | nil => exact dispatchable
  | cons request rest ih =>
    have same := serve_builtins interpreter request
    have next := serve_dispatchable dispatchable request
    rw [← same] at next ⊢
    exact ih next

end Interpreter

/-- What a cause says about builtins and functions is true. -/
def Cause.Warranted (builtins : Table (Builtin σ)) (functions : Table (List Clause)) :
    Cause → Prop
  | .arity name expected given =>
    expected ≠ given ∧ ∃ builtin, builtins.get? name = some builtin ∧ builtin.arity = expected
  | .undefinedFunction name => builtins.get? name = none ∧ functions.get? name = none
  | .noMatch name args =>
    builtins.get? name = none ∧ ∃ clauses, functions.get? name = some clauses ∧
      ∀ clause ∈ clauses, ¬clause.pattern.Accepts args
  | _ => True

/-- An evaluation left the functions alone, and failed for a true cause if it failed for one. -/
structure Evaluated.Honest (builtins : Table (Builtin σ)) (before : Machine σ)
    (outcome : Evaluated σ α) : Prop where
  functions : outcome.2.session.functions = before.session.functions
  warranted : ∀ cause, outcome.1 = .error (.because cause) →
    cause.Warranted builtins before.session.functions

namespace Evaluated.Honest

theorem ok (value : α) {before after : Machine σ}
    (functions : after.session.functions = before.session.functions) :
    Honest builtins before (.ok value, after) :=
  ⟨functions, nofun⟩

theorem fails {cause : Cause} {machine : Machine σ}
    (warranted : cause.Warranted builtins machine.session.functions) :
    Honest builtins machine ((.error (.because cause), machine) : Evaluated σ α) := by
  refine ⟨rfl, ?_⟩
  rintro _ ⟨⟩
  exact warranted

theorem defect (defect : Defect) {before after : Machine σ}
    (functions : after.session.functions = before.session.functions) :
    Honest builtins before ((.error (.internal defect), after) : Evaluated σ α) :=
  ⟨functions, nofun⟩

theorem andThen {before : Machine σ} {outcome : Evaluated σ α}
    (honest : outcome.Honest builtins before) {next : α → Machine σ → Evaluated σ β}
    (continued : ∀ value after, (next value after).Honest builtins after) :
    (outcome.andThen next).Honest builtins before := by
  rcases outcome with ⟨failure | value, middle⟩
  · refine ⟨honest.functions, fun cause failed => honest.warranted cause ?_⟩
    simpa using failed
  · have rest := continued value middle
    have same : middle.session.functions = before.session.functions := honest.functions
    exact ⟨rest.functions.trans same, fun cause failed => same ▸ rest.warranted cause failed⟩

end Evaluated.Honest

namespace Expr

variable {value : Expr → Machine σ → Evaluated σ Binary64}

theorem evaluateAll_honest (each : ∀ expr machine, (value expr machine).Honest builtins machine)
    (exprs : List Expr) (machine : Machine σ) :
    (evaluateAll value exprs machine).Honest builtins machine := by
  induction exprs generalizing machine with
  | nil => exact .ok [] rfl
  | cons expr rest ih =>
    rw [evaluateAll_cons]
    apply (each expr machine).andThen
    intro first middle
    apply (ih middle).andThen
    intro more after
    exact .ok _ rfl

/-- Evaluation is honest if its rule for calls is, whenever the bodies are. -/
theorem evaluateWith_honest {rule : CallRule σ}
    (calls : ∀ value : Expr → Machine σ → Evaluated σ Binary64,
      (∀ expr machine, (value expr machine).Honest builtins machine) →
      ∀ name args machine, (rule value name args machine).Honest builtins machine)
    (frames : Nat) (expr : Expr) (machine : Machine σ) :
    (expr.evaluateWith rule frames machine).Honest builtins machine := by
  induction frames using Nat.strongRecOn generalizing expr machine with
  | ind frames ih =>
    match frames, expr with
    | 0, _ => exact .fails trivial
    | _ + 1, .number value _ => exact .ok value rfl
    | _ + 1, .var name _ =>
      rw [evaluateWith]
      cases machine.session.environment.find? name with
      | some value => exact .ok value rfl
      | none => exact .fails trivial
    | frames + 1, .binary op left right _ =>
      rw [evaluateWith]
      apply (ih frames (by omega) left machine).andThen
      intro x middle
      apply (ih frames (by omega) right middle).andThen
      intro y after
      obtain ⟨value, applied⟩ | ⟨symbol, rfl⟩ := op.apply_cases x y
      · rw [applied]
        exact .ok value rfl
      · exact .defect _ rfl
    | _ + 1, .unary (.other symbol) _ _ => exact .defect _ rfl
    | frames + 1, .unary .neg operand _ =>
      rw [evaluateWith]
      apply (ih frames (by omega) operand machine).andThen
      intro x after
      exact .ok x.neg rfl
    | 1, .call _ _ _ => exact .fails trivial
    | 2, .call _ _ _ => exact .fails trivial
    | inner + 3, .call name args _ =>
      have bodies := ih inner (by omega)
      rw [evaluateWith]
      apply (evaluateAll_honest bodies args machine).andThen
      intro values middle
      exact calls _ bodies name values middle
    | _ + 1, .foreign kind _ => exact .defect _ rfl

private theorem within_honest {run : Machine σ → Evaluated σ Binary64} (scope : Scope)
    (machine : Machine σ)
    (body : (run (machine.enter scope)).Honest builtins (machine.enter scope)) :
    (machine.within scope run).Honest builtins machine := by
  rcases ran : run (machine.enter scope) with ⟨result, after⟩
  rw [ran] at body
  simp only [Machine.within, ran]
  cases closed : after.leave? with
  | none => exact ⟨body.functions, by rintro _ ⟨⟩; trivial⟩
  | some left =>
    have same : left.session.functions = after.session.functions := by
      simp only [Machine.leave?] at closed
      split at closed <;> cases closed
      rfl
    exact ⟨same.trans body.functions, body.warranted⟩

theorem applyAfresh_honest (bodies : ∀ expr machine, (value expr machine).Honest builtins machine)
    (name : String) (args : List Binary64) (machine : Machine σ) :
    (applyAfresh builtins value name args machine).Honest builtins machine := by
  cases given : builtins.get? name with
  | some builtin =>
    by_cases arity : builtin.arity = args.length
    · rw [applyAfresh_of_builtin given arity]
      rcases (builtin.run args machine.hidden).1 with fault | result
      · exact .defect _ rfl
      · exact .ok result rfl
    · rw [applyAfresh_of_arity given arity]
      exact .fails ⟨arity, builtin, given, rfl⟩
  | none =>
    cases defined : machine.session.functions.get? name with
    | none =>
      rw [applyAfresh_of_undefined given defined]
      exact .fails ⟨given, defined⟩
    | some clauses =>
      rcases selected : Clause.select? clauses args with _ | ⟨scope, body⟩
      · rw [applyAfresh_of_noMatch given defined selected]
        exact .fails ⟨given, clauses, defined, Clause.select?_eq_none_iff.mp selected⟩
      · rw [applyAfresh_of_clause given defined selected]
        exact within_honest scope machine (bodies body _)

theorem evaluate_honest (builtins : Table (Builtin σ)) (frames : Nat) (expr : Expr)
    (machine : Machine σ) : (expr.evaluate builtins frames machine).Honest builtins machine := by
  rw [evaluate_eq_evaluateWith]
  apply evaluateWith_honest
  intro value bodies name args machine
  cases cached : machine.session.cache.find? (.ofCall name args) with
  | some result =>
    rw [apply_of_present cached]
    exact .ok result rfl
  | none =>
    rw [apply_of_absent cached]
    apply (applyAfresh_honest bodies name args machine).andThen
    intro result after
    exact .ok result rfl

section Calls

variable {machine after : Machine σ} {frames : Nat} {name : String} {exprs : List Expr}
  {values : List Binary64}
  (evaluated : evaluateAll (evaluate builtins frames) exprs machine = (.ok values, after))
  (dispatchable : machine.session.Dispatchable builtins)

include evaluated

private theorem evaluate_call_of_evaluateAll (pos : Option Nat) :
    (call name exprs pos).evaluate builtins (frames + 3) machine =
      apply builtins (evaluate builtins frames) name values after := by
  rw [evaluate_call, evaluated, Evaluated.andThen_ok]

private theorem functions_of_evaluateAll :
    after.session.functions = machine.session.functions := by
  have moves := (Guarantee.evaluateAll_kept (Guarantee.evaluate_undisturbed builtins frames)
    exprs machine).moves
  rw [evaluated] at moves
  exact moves.functions

include dispatchable

/-- A call that there is nothing for is not a remembered one. -/
private theorem evaluate_call_of_not_answerable (pos : Option Nat)
    (nothing : ¬Answerable builtins machine.session.functions name values) :
    (call name exprs pos).evaluate builtins (frames + 3) machine =
      (applyAfresh builtins (evaluate builtins frames) name values after).andThen
        fun result machine => (.ok result, machine.remember (.ofCall name values) result) := by
  have moves := (Guarantee.evaluateAll_kept (Guarantee.evaluate_dispatching builtins frames)
    exprs machine).moves
  rw [evaluated] at moves
  rw [← functions_of_evaluateAll evaluated] at nothing
  rw [evaluate_call_of_evaluateAll evaluated,
    apply_of_absent ((moves.2 dispatchable).absent nothing)]

theorem evaluate_call_arity_iff (pos : Option Nat) (expected given : Nat) :
    ((call name exprs pos).evaluate builtins (frames + 3) machine).1 =
        .error (.because (.arity name expected given)) ↔
      given = values.length ∧ expected ≠ given ∧
        ∃ builtin, builtins.get? name = some builtin ∧ builtin.arity = expected := by
  constructor
  · intro failed
    obtain ⟨different, builtin, known, arity⟩ :=
      (evaluate_honest builtins (frames + 3) _ machine).warranted _ failed
    refine ⟨?_, different, builtin, known, arity⟩
    -- the name is a builtin, so no body was evaluated: the call itself counted the arguments
    rw [evaluate_call_of_evaluateAll evaluated] at failed
    cases cached : after.session.cache.find? (.ofCall name values) with
    | some result =>
      rw [apply_of_present cached] at failed
      cases failed
    | none =>
      rw [apply_of_absent cached] at failed
      by_cases fits : builtin.arity = values.length
      · rw [applyAfresh_of_builtin known fits] at failed
        generalize (builtin.run values after.hidden).1 = answer at failed
        cases answer <;> cases failed
      · rw [applyAfresh_of_arity known fits] at failed
        cases failed
        rfl
  · rintro ⟨rfl, different, builtin, known, rfl⟩
    have nothing : ¬Answerable builtins machine.session.functions name values := by
      rintro (⟨other, arity⟩ | ⟨other, -, -, -⟩) <;> rw [known] at other <;> cases other
      exact different arity
    rw [evaluate_call_of_not_answerable evaluated dispatchable pos nothing,
      applyAfresh_of_arity known different]
    rfl

theorem evaluate_call_undefinedFunction_iff (pos : Option Nat) :
    ((call name exprs pos).evaluate builtins (frames + 3) machine).1 =
        .error (.because (.undefinedFunction name)) ↔
      builtins.get? name = none ∧ machine.session.functions.get? name = none := by
  constructor
  · exact (evaluate_honest builtins (frames + 3) _ machine).warranted _
  · rintro ⟨given, defined⟩
    have nothing : ¬Answerable builtins machine.session.functions name values := by
      rintro (⟨other, -⟩ | ⟨-, other, -, -⟩)
      · rw [given] at other
        cases other
      · rw [defined] at other
        cases other
    rw [evaluate_call_of_not_answerable evaluated dispatchable pos nothing,
      applyAfresh_of_undefined given (by rwa [functions_of_evaluateAll evaluated])]
    rfl

theorem evaluate_call_noMatch_iff (pos : Option Nat) :
    ((call name exprs pos).evaluate builtins (frames + 3) machine).1 =
        .error (.because (.noMatch name values)) ↔
      builtins.get? name = none ∧ ∃ clauses, machine.session.functions.get? name = some clauses ∧
        ∀ clause ∈ clauses, ¬clause.pattern.Accepts values := by
  constructor
  · exact (evaluate_honest builtins (frames + 3) _ machine).warranted _
  · rintro ⟨given, clauses, defined, rejected⟩
    have nothing : ¬Answerable builtins machine.session.functions name values := by
      rintro (⟨other, -⟩ | ⟨-, other, member, accepts⟩)
      · rw [given] at other
        cases other
      · rw [defined] at other
        cases other
        exact rejected _ member accepts
    rw [evaluate_call_of_not_answerable evaluated dispatchable pos nothing,
      applyAfresh_of_noMatch given (by rwa [functions_of_evaluateAll evaluated])
        (Clause.select?_eq_none_iff.mpr rejected)]
    rfl

end Calls

end Expr

/-- A machine that can be come across while statements are served from the first one on: statements
were counted, scopes opened and closed, and expressions evaluated. -/
inductive Machine.Underway (builtins : Table (Builtin σ)) (start : Machine σ) :
    Machine σ → Prop where
  | start : Underway builtins start start
  | counted {machine : Machine σ} (statements : Nat) :
    Underway builtins start machine →
      Underway builtins start
        { machine with session := { machine.session with statements := statements } }
  | inScopes {machine : Machine σ} (environment : Environment) :
    Underway builtins start machine →
      Underway builtins start (machine.withEnvironment environment)
  | evaluated {machine : Machine σ} (frames : Nat) (expr : Expr) :
    Underway builtins start machine →
      Underway builtins start (expr.evaluate builtins frames machine).2

theorem Machine.Underway.dispatchable {start machine : Machine σ}
    (underway : Underway builtins start machine)
    (dispatchable : start.session.Dispatchable builtins) :
    machine.session.Dispatchable builtins := by
  induction underway with
  | start => exact dispatchable
  | counted statements _ ih => exact ih.of_eq rfl rfl
  | inScopes environment _ ih => exact ih.of_eq rfl rfl
  | evaluated frames expr _ ih =>
    exact (Guarantee.evaluate_dispatching builtins frames expr _).moves.2 ih

/-- A remembered result never hides that a call cannot be dispatched. Whatever was served since a
new interpreter was set up, and also in the middle of a statement, every remembered key belongs to a
builtin of as many arguments, or else to a function of the session with a clause that accepts them.
Hence a call whose arguments have values fails for the number of its arguments exactly when the name
is a builtin of another arity, for an undefined function exactly when it is neither a builtin nor a
function, and for want of a matching clause exactly when it is a function, and no builtin, none of
whose clauses accepts the values: what is remembered makes no difference. -/
theorem Interpreter.memory_hides_no_dispatch_failure (builtins : Table (Builtin σ))
    (constants : Table Binary64) (policy : CachePolicy) (limit : FrameLimit) (hidden : σ)
    (requests : List Request) (machine : Machine σ)
    (underway : Machine.Underway builtins
      ((create builtins constants policy limit hidden).serveAll requests).machine machine) :
    (∀ key result, machine.session.cache.find? key = some result →
      Answerable builtins machine.session.functions key.name key.args) ∧
      ∀ frames name exprs pos values after,
        Expr.evaluateAll (Expr.evaluate builtins frames) exprs machine = (.ok values, after) →
        (∀ expected given,
          ((Expr.call name exprs pos).evaluate builtins (frames + 3) machine).1 =
              .error (.because (.arity name expected given)) ↔
            given = values.length ∧ expected ≠ given ∧
              ∃ builtin, builtins.get? name = some builtin ∧ builtin.arity = expected) ∧
          (((Expr.call name exprs pos).evaluate builtins (frames + 3) machine).1 =
              .error (.because (.undefinedFunction name)) ↔
            builtins.get? name = none ∧ machine.session.functions.get? name = none) ∧
          (((Expr.call name exprs pos).evaluate builtins (frames + 3) machine).1 =
              .error (.because (.noMatch name values)) ↔
            builtins.get? name = none ∧
              ∃ clauses, machine.session.functions.get? name = some clauses ∧
                ∀ clause ∈ clauses, ¬clause.pattern.Accepts values) := by
  have nothing : (create builtins constants policy limit hidden).session.Dispatchable builtins := by
    intro key result cached
    cases cached
  have dispatchable := underway.dispatchable (Interpreter.serveAll_dispatchable nothing requests)
  refine ⟨dispatchable, ?_⟩
  intro frames name exprs pos values after evaluated
  exact ⟨Expr.evaluate_call_arity_iff evaluated dispatchable pos,
    Expr.evaluate_call_undefinedFunction_iff evaluated dispatchable pos,
    Expr.evaluate_call_noMatch_iff evaluated dispatchable pos⟩

def identityOnly : Table (Builtin Unit) := ⟨[("same", .unary (.single "same") .ok)]⟩

/-- The builtin was asked for zero, and `f(0)` was defined to be one and asked with a negative
zero. -/
def zeroAsked : Interpreter Unit :=
  (Interpreter.create identityOnly {} .session .standard ()).serveAll
    [.perform 9 (some (.expression (.call "same" [.number (.zero false) none] none))),
    .perform 9 (some (.clause "f" [.number (.zero false) none] (.number (.ofInt 1) none) none)),
    .perform 9 (some (.expression (.call "f" [.number (.zero true) none] none)))]

/-- With results of both functions remembered, each way of calling amiss is found out. -/
theorem calls_amiss_found_out :
    Answerable identityOnly zeroAsked.machine.session.functions "f" [.zero false] ∧
      ((Expr.call "same" [] none).evaluate identityOnly (1 + 3) zeroAsked.machine).1 =
        .error (.because (.arity "same" 1 0)) ∧
      ((Expr.call "g" [] none).evaluate identityOnly (1 + 3) zeroAsked.machine).1 =
        .error (.because (.undefinedFunction "g")) ∧
      ((Expr.call "f" [.number (.ofInt 1) none] none).evaluate identityOnly (1 + 3)
        zeroAsked.machine).1 = .error (.because (.noMatch "f" [.ofInt 1])) := by
  obtain ⟨answerable, calls⟩ := Interpreter.memory_hides_no_dispatch_failure identityOnly {}
    .session .standard () _ zeroAsked.machine .start
  refine ⟨answerable ⟨"f", [.zero false]⟩ (.ofInt 1) rfl, ?_, ?_, ?_⟩
  · apply ((calls 1 "same" [] none [] _ rfl).1 1 0).mpr
    exact ⟨rfl, by decide, _, rfl, rfl⟩
  · exact (calls 1 "g" [] none [] _ rfl).2.1.mpr ⟨rfl, rfl⟩
  · apply (calls 1 "f" [.number (.ofInt 1) none] none [.ofInt 1] _ rfl).2.2.mpr
    refine ⟨rfl, _, rfl, ?_⟩
    intro clause member accepts
    cases List.mem_singleton.mp member
    have equal : (Binary64.zero false).equal (.ofInt 1) = true := (List.forall₂_cons.mp accepts).1
    exact absurd equal (by decide +kernel)

end Calculator

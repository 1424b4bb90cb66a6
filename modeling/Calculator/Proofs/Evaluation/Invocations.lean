import Calculator.Proofs.Evaluation.Agreement
import Calculator.Proofs.Evaluation.Recording
import Calculator.Proofs.Session.Freshness

/-! How often builtins are invoked. A builtin is invoked only when there is no result under the key
of the call, and its answer is remembered at once, so that no key is answered twice; nothing but a
further clause of the same name, under the redefine policy, makes room for another invocation. -/

namespace Calculator

variable {σ α β : Type}

/-- What an evaluation does to a machine besides opening and closing scopes: it invokes a builtin
for a key without a result, and it remembers results of functions that are no builtins. A property
that survives these is an invariant. -/
structure Machine.Invariant (builtins : Table (Builtin σ)) (Holds : Machine σ → Prop) : Prop where
  rescoped : ∀ {machine} environment, Holds machine → Holds (machine.withEnvironment environment)
  invoked : ∀ {name builtin args machine}, builtins.get? name = some builtin →
    machine.session.cache.find? (.ofCall name args) = none → Holds machine →
    Holds (Expr.applyBuiltin name builtin args machine).2
  remembered : ∀ {key machine} value, builtins.get? key.name = none → Holds machine →
    Holds (machine.remember key value)

namespace Machine.Invariant

variable {builtins : Table (Builtin σ)} {Holds : Machine σ → Prop}

theorem andThen {outcome : Evaluated σ α} (first : Holds outcome.2)
    {next : α → Machine σ → Evaluated σ β}
    (second : ∀ value machine, Holds machine → Holds (next value machine).2) :
    Holds (outcome.andThen next).2 := by
  rcases outcome with ⟨failure | value, machine⟩
  · exact first
  · exact second value machine first

section Steps

variable {value : Expr → Machine σ → Evaluated σ Binary64}
  (each : ∀ expr machine, Holds machine → Holds (value expr machine).2)

include each

private theorem evaluateAll (exprs : List Expr) {machine : Machine σ} (holds : Holds machine) :
    Holds (Expr.evaluateAll value exprs machine).2 := by
  induction exprs generalizing machine with
  | nil => exact holds
  | cons expr rest ih =>
    rw [Expr.evaluateAll_cons]
    apply andThen (each expr machine holds)
    intro first machine holds
    exact andThen (ih holds) fun _ _ holds => holds

private theorem slots (params : List Expr) {machine : Machine σ} (holds : Holds machine) :
    Holds (Statement.slots value params machine).2 := by
  induction params generalizing machine with
  | nil => exact holds
  | cons param rest ih =>
    have first : Holds (Statement.slot value param machine).2 := by
      cases param with
      | var name pos => exact holds
      | _ => exact andThen (each _ machine holds) fun _ _ holds => holds
    rw [Statement.slots_cons]
    apply andThen first
    intro slot machine holds
    exact andThen (ih holds) fun _ _ holds => holds

variable (invariant : Machine.Invariant builtins Holds)

include invariant

private theorem within (scope : Scope) (body : Expr) {machine : Machine σ}
    (holds : Holds machine) : Holds (machine.within scope (value body)).2 := by
  have inside := each body (machine.enter scope) (invariant.rescoped _ holds)
  rcases ran : value body (machine.enter scope) with ⟨result, after⟩
  rw [ran] at inside
  simp only [Machine.within, ran, Machine.leave?]
  cases after.session.environment.leave? with
  | none => exact inside
  | some left => exact invariant.rescoped left.2 inside

private theorem apply (name : String) (args : List Binary64) {machine : Machine σ}
    (holds : Holds machine) : Holds (Expr.apply builtins value name args machine).2 := by
  cases cached : machine.session.cache.find? (.ofCall name args) with
  | some result =>
    rw [Expr.apply_of_present cached]
    exact holds
  | none =>
    cases given : builtins.get? name with
    | some builtin =>
      simp only [Expr.apply, cached, given]
      exact invariant.invoked given cached holds
    | none =>
      rw [Expr.apply_of_absent cached]
      have computed : Holds (Expr.applyAfresh builtins value name args machine).2 := by
        simp only [Expr.applyAfresh, given]
        cases machine.session.functions.get? name with
        | none => exact holds
        | some clauses =>
          rcases selected : Clause.select? clauses args with _ | ⟨scope, body⟩ <;>
            simp only [selected]
          · exact holds
          · exact within each invariant scope body holds
      apply andThen computed
      intro result machine holds
      exact invariant.remembered result given holds

end Steps

theorem evaluate (invariant : Machine.Invariant builtins Holds) (frames : Nat) (expr : Expr)
    (machine : Machine σ) (holds : Holds machine) :
    Holds (expr.evaluate builtins frames machine).2 := by
  induction frames using Nat.strongRecOn generalizing expr machine with
  | ind frames ih =>
    match frames, expr with
    | 0, _ => exact holds
    | _ + 1, .number _ _ => exact holds
    | _ + 1, .var name _ =>
      rw [Expr.evaluate]
      cases machine.session.environment.find? name <;> exact holds
    | frames + 1, .binary op left right _ =>
      rw [Expr.evaluate_binary]
      apply andThen (ih frames (by omega) left machine holds)
      intro x machine holds
      exact andThen (ih frames (by omega) right machine holds) fun _ _ holds => holds
    | _ + 1, .unary (.other _) _ _ => exact holds
    | frames + 1, .unary .neg operand _ =>
      rw [Expr.evaluate_neg]
      exact andThen (ih frames (by omega) operand machine holds) fun _ _ holds => holds
    | 1, .call _ _ _ => exact holds
    | 2, .call _ _ _ => exact holds
    | inner + 3, .call name args _ =>
      have bodies := ih inner (by omega)
      rw [Expr.evaluate_call]
      apply andThen (evaluateAll bodies args holds)
      intro values machine holds
      exact apply bodies invariant name values holds
    | _ + 1, .foreign _ _ => exact holds

theorem evaluated (invariant : Machine.Invariant builtins Holds) (frames : Nat)
    (statement : Option Statement) {machine : Machine σ} (holds : Holds machine) :
    Holds (Statement.evaluated (Expr.evaluate builtins frames) statement machine) := by
  have each := invariant.evaluate frames
  match statement with
  | none => exact holds
  | some (.expression expr) => exact each expr machine holds
  | some (.constant _ expr _) => exact each expr machine holds
  | some (.clause _ params _ _) => exact slots each params holds

end Machine.Invariant

/-- How often a record has a call of the key. -/
def CallKey.tally (key : CallKey) (record : List Call) : Nat :=
  record.countP fun call => call.key = key

/-- The builtin of this name answered every key that has a result once, and no other key. -/
def Machine.Tallied (name : String) (machine : Machine (σ × List Call)) : Prop :=
  ∀ key : CallKey, key.name = name →
    key.tally machine.hidden.2 = if (machine.session.cache.find? key).isSome then 1 else 0

namespace Machine.Tallied

variable {builtins : Table (Builtin σ)} {name : String}

private theorem answered {machine after : Machine (σ × List Call)}
    (tallied : machine.Tallied name) (call : Call) {value : Binary64}
    (absent : machine.session.cache.find? call.key = none)
    (recorded : after.hidden.2 = machine.hidden.2 ++ [call])
    (remembered : after.session.cache = machine.session.cache.insert call.key value) :
    after.Tallied name := by
  intro key named
  have before := tallied key named
  rw [recorded, remembered, CallKey.tally, List.countP_append, ← CallKey.tally, before]
  by_cases same : call.key = key
  · subst same
    rw [absent, ResultCache.find?_insert_self]
    simp
  · rw [ResultCache.find?_insert_of_ne _ (Ne.symm same)]
    simp [same]

/-- A builtin is invoked for a key without a result, and leaves one if it answers. -/
private theorem invoked {other : String} {builtin : Builtin σ} {args : List Binary64}
    {machine : Machine (σ × List Call)} (tallied : machine.Tallied name)
    (absent : machine.session.cache.find? (.ofCall other args) = none) :
    (Expr.applyBuiltin other (builtin.recorded other) args machine).2.Tallied name := by
  by_cases arity : builtin.arity = args.length
  · simp only [Expr.applyBuiltin, Builtin.recorded, arity, ne_eq, not_true_eq_false, if_false]
    rcases builtin.run args machine.hidden.1 with ⟨fault | value, hidden⟩
    · exact tallied
    · exact tallied.answered ⟨other, args⟩ absent rfl rfl
  · simp only [Expr.applyBuiltin, Builtin.recorded, arity, ne_eq, not_false_eq_true, if_true]
    exact tallied

/-- Evaluation keeps the tally of a builtin: what is remembered for the functions of a session has
other names. -/
theorem invariant {builtin : Builtin σ} (given : builtins.get? name = some builtin) :
    Machine.Invariant (Builtin.recordedAll builtins) (Machine.Tallied (σ := σ) name) where
  rescoped _ tallied := tallied
  invoked {other _ args machine} listed absent tallied := by
    rw [Builtin.get?_recordedAll] at listed
    obtain ⟨plain, -, rfl⟩ := Option.map_eq_some_iff.mp listed
    exact tallied.invoked absent
  remembered {other machine} value unlisted tallied := by
    intro key named
    have different : key ≠ other := by
      rintro rfl
      rw [Builtin.get?_recordedAll, named, given] at unlisted
      cases unlisted
    have before := tallied key named
    rwa [← ResultCache.find?_insert_of_ne _ different value] at before

/-- A further clause makes no difference under the session policy or to another name. -/
theorem appendClause {machine : Machine (σ × List Call)} (tallied : machine.Tallied name)
    {other : String}
    (spared : machine.session.cache.policy = .session ∨ other ≠ name) (clause : Clause) :
    (machine.appendClause other clause).Tallied name := by
  intro key named
  have before := tallied key named
  have kept : (machine.appendClause other clause).session.cache.find? key =
      machine.session.cache.find? key := by
    simp only [Machine.appendClause, Session.appendClause, ResultCache.redefined]
    split
    · rfl
    · rename_i policy
      rw [ResultCache.find?_forget, if_neg]
      rintro same
      rcases spared with session | different
      · rw [policy] at session
        cases session
      · exact different (same.symm.trans named)
  rw [kept]
  exact before

end Machine.Tallied

/-- A statement keeps the tally of a builtin unless it adds a clause to its name. -/
theorem Statement.perform_tallied {builtins : Table (Builtin σ)} {name : String}
    {builtin : Builtin σ} (given : builtins.get? name = some builtin) (frames : Nat)
    (statement : Option Statement) {machine : Machine (σ × List Call)}
    (tallied : machine.Tallied name)
    (spared : machine.session.cache.policy = .session ∨ ∀ params body pos answer,
      statement = some (.clause name params body pos) →
        (perform (Builtin.recordedAll builtins) frames statement machine).1 ≠ .ok answer) :
    (perform (Builtin.recordedAll builtins) frames statement machine).2.Tallied name := by
  have kept := (Machine.Tallied.invariant given).evaluated (allowance frames statement) statement
    tallied
  have policy := (evaluated_course (Builtin.recordedAll builtins) frames statement
    machine).undisturbed.policy
  have performed := perform_performed (Builtin.recordedAll builtins) frames statement machine
  generalize perform (Builtin.recordedAll builtins) frames statement machine = outcome
    at performed spared ⊢
  cases performed with
  | clause other params body pos pattern =>
    apply kept.appendClause
    rw [policy]
    refine spared.imp_right fun unextended same => ?_
    subst same
    exact unextended params body pos _ rfl rfl
  | _ => exact kept

namespace Interpreter

/-- No request of the run adds a clause to the name. -/
def Spares (name : String) (interpreter : Interpreter σ) : List Request → Prop
  | [] => True
  | request :: rest =>
    (∀ frames params, ¬interpreter.AddsClause request frames name params) ∧
      (interpreter.serve request).Spares name rest

theorem AddsClause.of_recording {interpreter : Interpreter σ} {record : List Call}
    {request : Request} {frames : Nat} {name : String} {params : List Expr}
    (adds : (interpreter.recording record).AddsClause request frames name params) :
    interpreter.AddsClause request frames name params := by
  obtain ⟨body, pos, answer, performed, added⟩ := adds
  obtain ⟨more, same⟩ := (interpreter.prepared request).perform_recording frames
    (some (.clause name params body pos))
  rw [prepared_recording, same] at added
  exact ⟨body, pos, answer, performed, added⟩

theorem serve_tallied {interpreter : Interpreter σ} {name : String} {builtin : Builtin σ}
    (given : interpreter.builtins.get? name = some builtin) {record : List Call}
    (tallied : (interpreter.recording record).machine.Tallied name) {request : Request}
    (spared : interpreter.session.cache.policy = .session ∨
      ∀ frames params, ¬interpreter.AddsClause request frames name params) :
    ((interpreter.recording record).serve request).machine.Tallied name := by
  have start : ((interpreter.recording record).prepared request).machine.Tallied name := by
    cases request <;> exact tallied
  apply serve_induction (Machine.Tallied name) _ request start
  intro frames statement performed
  apply Statement.perform_tallied given frames statement start
  refine spared.imp ?_ ?_
  · intro policy
    rw [prepared_cache]
    exact policy
  · rintro unextended params body pos answer rfl added
    have adds : (interpreter.recording record).AddsClause request frames name params :=
      ⟨body, pos, answer, performed, by cases request <;> exact added⟩
    exact unextended frames params adds.of_recording

theorem serveAll_tallied {interpreter : Interpreter σ} {name : String} {builtin : Builtin σ}
    (given : interpreter.builtins.get? name = some builtin) {record : List Call}
    (tallied : (interpreter.recording record).machine.Tallied name) {requests : List Request}
    (spared : interpreter.session.cache.policy = .session ∨ interpreter.Spares name requests) :
    ((interpreter.recording record).serveAll requests).machine.Tallied name := by
  induction requests generalizing interpreter record with
  | nil => exact tallied
  | cons request rest ih =>
    obtain ⟨more, served⟩ := interpreter.serve_recording request
    have next := serve_tallied given tallied (spared.imp_right And.left)
    rw [served] at next
    have still : (interpreter.serve request).builtins.get? name = some builtin := by
      rwa [serve_builtins]
    have further := ih still next
      (spared.imp (serve_policy interpreter request).trans And.right)
    rw [← served] at further
    exact further

end Interpreter

instance (first second : Call) : Decidable (first.Equal second) := by
  unfold Call.Equal
  infer_instance

/-- Where no argument is nan, the calls of a key are those that are equal to it. -/
theorem CallKey.tally_ofCall (name : String) {args : List Binary64}
    (numbers : ∀ x ∈ args, x.isNaN = false) (record : List Call) :
    (CallKey.ofCall name args).tally record =
      record.countP fun call => call.Equal ⟨name, args⟩ := by
  apply List.countP_congr
  intro call _
  rw [decide_eq_true_iff, decide_eq_true_iff]
  show call.key = Call.key ⟨name, args⟩ ↔ call.Equal ⟨name, args⟩
  exact Call.key_eq_iff numbers

namespace Interpreter

/-- If a builtin has no results at the start of a run, then at its end each key of it has a result
exactly if it was answered once in the run, and no key was answered more often. -/
theorem countP_invocations {interpreter : Interpreter σ} {name : String} {builtin : Builtin σ}
    (given : interpreter.builtins.get? name = some builtin)
    (nothing : ∀ key, key.name = name → interpreter.session.cache.find? key = none)
    {requests : List Request}
    (spared : interpreter.session.cache.policy = .session ∨ interpreter.Spares name requests)
    {args : List Binary64} (numbers : ∀ x ∈ args, x.isNaN = false) :
    (interpreter.invocations requests).countP (fun call => call.Equal ⟨name, args⟩) =
      if ((interpreter.serveAll requests).session.cache.find? (.ofCall name args)).isSome then 1
      else 0 := by
  have empty : (interpreter.recording []).machine.Tallied name := by
    intro key named
    rw [show (interpreter.recording []).machine.session.cache.find? key = none from
      nothing key named]
    rfl
  have ended := serveAll_tallied given empty spared
  rw [serveAll_recording_eq, List.nil_append] at ended
  rw [← CallKey.tally_ofCall name numbers]
  exact ended (.ofCall name args) rfl

/-- The last request of a run adds a clause to the name, or there was no request. -/
def JustDefined (name : String) (interpreter : Interpreter σ) (requests : List Request) : Prop :=
  requests = [] ∨ ∃ earlier request frames params, requests = earlier ++ [request] ∧
    (interpreter.serveAll earlier).AddsClause request frames name params

theorem serveAll_append (interpreter : Interpreter σ) (early late : List Request) :
    interpreter.serveAll (early ++ late) = (interpreter.serveAll early).serveAll late :=
  List.foldl_append

/-- Under the redefine policy a name has no results when it was just defined. -/
theorem JustDefined.find?_eq_none {interpreter : Interpreter σ}
    (policy : interpreter.session.cache.policy = .redefine) {name : String}
    (nothing : ∀ key, interpreter.session.cache.find? key = none) {requests : List Request}
    (defined : interpreter.JustDefined name requests) {key : CallKey} (named : key.name = name) :
    (interpreter.serveAll requests).session.cache.find? key = none := by
  rcases defined with rfl | ⟨earlier, request, frames, params, rfl, adds⟩
  · exact nothing key
  · have same := (serveAll_policy interpreter earlier).trans policy
    rw [serveAll_append]
    exact (find?_serve_of_addsClause adds same key).trans (if_pos named)

/-- A builtin is invoked at most once for each key. Let the builtins keep a record of the calls that
they answer, which changes nothing else. In a run under the session policy the calls among them that
are equal to a given one, of a builtin and without nan, are one if the key has a result at the end
and none otherwise. Under the redefine policy the same is true of what is recorded since the last
request that added a clause to the name, or since the start if there is none. -/
theorem builtin_invoked_once (builtins : Table (Builtin σ)) (constants : Table Binary64)
    (limit : FrameLimit) (hidden : σ) (name : String) (builtin : Builtin σ)
    (given : builtins.get? name = some builtin) (args : List Binary64)
    (numbers : ∀ x ∈ args, x.isNaN = false) :
    (∀ (interpreter : Interpreter σ) (requests : List Request) (record : List Call),
      (interpreter.recording record).serveAll requests =
        (interpreter.serveAll requests).recording
          (record ++ interpreter.invocations requests)) ∧
    (∀ start requests, start = create builtins constants .session limit hidden →
      (start.invocations requests).countP (fun call => call.Equal ⟨name, args⟩) =
        if ((start.serveAll requests).session.cache.find? (.ofCall name args)).isSome then 1
        else 0) ∧
    ∀ start early late, start = create builtins constants .redefine limit hidden →
      start.JustDefined name early → (start.serveAll early).Spares name late →
      ((start.serveAll early).invocations late).countP (fun call => call.Equal ⟨name, args⟩) =
        if ((start.serveAll (early ++ late)).session.cache.find? (.ofCall name args)).isSome then 1
        else 0 := by
  refine ⟨serveAll_recording_eq, ?_, ?_⟩
  · rintro start requests rfl
    exact countP_invocations given (fun _ _ => rfl) (.inl rfl) numbers
  · rintro start early late rfl defined spared
    have still : ((create builtins constants .redefine limit hidden).serveAll early).builtins.get?
        name = some builtin := by
      rw [serveAll_builtins]
      exact given
    rw [serveAll_append]
    exact countP_invocations still
      (fun key named => defined.find?_eq_none rfl (fun _ => rfl) named) (.inr spared) numbers

end Interpreter

/-- A builtin without arguments that returns how often it was invoked. -/
def ticking : Builtin Nat :=
  .nullary (.bare "tick") fun count => (.ok (.ofInt (count + 1)), count + 1)

def tickingInterpreter (policy : CachePolicy) : Interpreter Nat :=
  .create ⟨[("tick", ticking)]⟩ {} policy .standard 0

/-- The builtin is asked twice, in the body of a function and by itself. -/
def tickingRun : List Request :=
  let tick : Expr := .call "tick" [] none
  [.perform 30 (some (.clause "f" [.var "x" none] tick none)),
    .perform 30 (some (.expression
      (.binary .sub (.call "f" [.number (.ofInt 1) none] none) tick none)))]

/-- A clause under the name of the builtin, which is never selected. -/
def tickingClause : Request :=
  .perform 30 (some (.clause "tick" [] (.number (.ofInt 5) none) none))

/-- The builtin is invoked once, however often it is asked; and once again when a clause of the same
name took its result away. -/
theorem ticking_invoked_once :
    ((tickingInterpreter .session).invocations (tickingRun ++ tickingRun)).countP
        (fun call => call.Equal ⟨"tick", []⟩) = 1 ∧
      (((tickingInterpreter .redefine).serveAll (tickingRun ++ [tickingClause])).invocations
        tickingRun).countP (fun call => call.Equal ⟨"tick", []⟩) = 1 := by
  obtain ⟨-, session, redefine⟩ := Interpreter.builtin_invoked_once ⟨[("tick", ticking)]⟩ {}
    .standard 0 "tick" ticking rfl [] nofun
  have defined : (tickingInterpreter .redefine).JustDefined "tick"
      (tickingRun ++ [tickingClause]) :=
    .inr ⟨tickingRun, tickingClause, 30, [], rfl, _, _, .clauseAdded "tick" [], rfl, rfl⟩
  have spared : ((tickingInterpreter .redefine).serveAll
      (tickingRun ++ [tickingClause])).Spares "tick" tickingRun := by
    refine ⟨?_, ?_, trivial⟩
    · rintro frames params ⟨body, pos, answer, performed, -⟩
      simp [Request.performed?] at performed
    · rintro frames params ⟨body, pos, answer, performed, -⟩
      cases performed
  constructor
  · rw [session (tickingInterpreter .session) _ rfl]
    decide +kernel
  · rw [redefine (tickingInterpreter .redefine) _ _ rfl defined spared]
    decide +kernel

end Calculator

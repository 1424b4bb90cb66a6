import Calculator.Proofs.Evaluation.Arithmetic
import Calculator.Proofs.Evaluation.Atomicity
import Calculator.Proofs.Evaluation.Limit
import Calculator.Proofs.Session.Selection
import Calculator.Proofs.Statement.Meaning

/-! Which errors can come out. If builtins take what they are made for and every tree has a meaning,
an evaluation fails for one of the documented causes or not at all. The standard builtins are such,
and so are all trees that texts are read as, also those that were put into clauses long ago; hence
no text makes an interpreter fail in any other way, whatever was fed before. -/

namespace Calculator

variable {σ α β : Type} {builtins : Table (Builtin σ)}

/-- A cause that a user is told of: a malformed text, an undefined name, a wrong number of
arguments, a call that no clause accepts, or a recursion that is too deep. -/
inductive Cause.Documented : Cause → Prop where
  | malformed {error : SyntaxError} : Documented (.malformed error)
  | undefinedName {name : String} : Documented (.undefinedName name)
  | undefinedFunction {name : String} : Documented (.undefinedFunction name)
  | arity {name : String} {expected given : Nat} : Documented (.arity name expected given)
  | noMatch {name : String} {args : List Binary64} : Documented (.noMatch name args)
  | stackLimit : Documented .stackLimit

def Failure.Documented : Failure → Prop
  | .because cause => cause.Documented
  | .internal _ => False

/-- If there is no value, there is a documented cause. -/
def Evaluated.Documented (outcome : Evaluated σ α) : Prop :=
  ∀ failure, outcome.1 = .error failure → failure.Documented

namespace Evaluated.Documented

theorem ok {value : α} {machine : Machine σ} :
    Evaluated.Documented ((.ok value, machine) : Evaluated σ α) := by
  intro failure failed
  cases failed

theorem because {cause : Cause} (documented : cause.Documented) {machine : Machine σ} :
    Evaluated.Documented ((.error (.because cause), machine) : Evaluated σ α) := by
  intro failure failed
  cases failed
  exact documented

theorem andThen {outcome : Evaluated σ α} (documented : outcome.Documented)
    {next : α → Machine σ → Evaluated σ β}
    (continued : ∀ value, (next value outcome.2).Documented) :
    (outcome.andThen next).Documented := by
  rcases outcome with ⟨failure | value, middle⟩
  · intro other failed
    cases failed
    exact documented failure rfl
  · exact continued value

end Evaluated.Documented

namespace Session

/-- The bodies of all clauses have a meaning. -/
def Meaningful (session : Session) : Prop :=
  ∀ name, ∀ clause ∈ session.clauses name, clause.body.Meaningful

theorem Meaningful.of_eq {session session' : Session} (meaningful : session.Meaningful)
    (functions : session'.functions = session.functions) : session'.Meaningful := by
  intro name clause member
  rw [clauses, functions] at member
  exact meaningful name clause member

theorem Meaningful.appendClause {session : Session} (meaningful : session.Meaningful)
    (name : String) {clause : Clause} (body : clause.body.Meaningful) :
    (session.appendClause name clause).Meaningful := by
  intro other older member
  by_cases same : other = name
  · subst same
    rw [clauses_appendClause_self, List.mem_append, List.mem_singleton] at member
    rcases member with member | rfl
    · exact meaningful other older member
    · exact body
  · rw [clauses_appendClause_of_ne session same] at member
    exact meaningful other older member

theorem Meaningful.of_select? {session : Session} (meaningful : session.Meaningful) {name : String}
    {clauses : List Clause} (defined : session.functions.get? name = some clauses)
    {args : List Binary64} {scope : Scope} {body : Expr}
    (selected : Clause.select? clauses args = some (scope, body)) : body.Meaningful := by
  obtain ⟨clause, present, -, rfl⟩ := Clause.exists_of_select? selected
  exact meaningful name clause (by simpa [Session.clauses, defined] using present)

end Session

theorem BinaryOp.Known.exists_apply {op : BinaryOp} (known : op.Known) (x y : Binary64) :
    ∃ value, op.apply x y = .ok value := by
  obtain given | ⟨symbol, rfl⟩ := op.apply_cases x y
  · exact given
  · cases known

namespace Expr

variable (builtins) in
/-- Within these frames a tree with a meaning fails for documented causes only. -/
def DocumentedWithin (frames : Nat) : Prop :=
  ∀ (expr : Expr) (machine : Machine σ), expr.Meaningful → machine.session.Meaningful →
    (expr.evaluate builtins frames machine).Documented

private theorem evaluateAll_documented {frames : Nat} (each : DocumentedWithin builtins frames)
    {exprs : List Expr} (meaningful : ∀ expr ∈ exprs, expr.Meaningful) {machine : Machine σ}
    (bodies : machine.session.Meaningful) :
    (evaluateAll (evaluate builtins frames) exprs machine).Documented := by
  induction exprs generalizing machine with
  | nil => exact .ok
  | cons expr rest ih =>
    obtain ⟨first, others⟩ := List.forall_mem_cons.mp meaningful
    have undisturbed := (Guarantee.evaluate_undisturbed builtins frames expr machine).moves
    rw [evaluateAll_cons]
    apply (each expr machine first bodies).andThen
    intro value
    apply (ih others (bodies.of_eq undisturbed.functions)).andThen
    intro values
    exact .ok

private theorem applyAfresh_documented (faultless : Builtin.AllFaultless builtins) {frames : Nat}
    (each : DocumentedWithin builtins frames) (name : String) (args : List Binary64)
    {machine : Machine σ} (bodies : machine.session.Meaningful) :
    (applyAfresh builtins (evaluate builtins frames) name args machine).Documented := by
  cases given : builtins.get? name with
  | some builtin =>
    by_cases arity : builtin.arity = args.length
    · obtain ⟨value, computed⟩ := faultless name builtin given args machine.hidden arity
      rw [applyAfresh_of_builtin given arity, computed]
      exact .ok
    · rw [applyAfresh_of_arity given arity]
      exact .because .arity
  | none =>
    cases defined : machine.session.functions.get? name with
    | none =>
      rw [applyAfresh_of_undefined given defined]
      exact .because .undefinedFunction
    | some clauses =>
      rcases selected : Clause.select? clauses args with _ | ⟨scope, body⟩
      · rw [applyAfresh_of_noMatch given defined selected]
        exact .because .noMatch
      · rw [applyAfresh_of_clause given defined selected]
        have inside := each body (machine.enter scope) (bodies.of_select? defined selected) bodies
        have left := (Guarantee.evaluate_undisturbed builtins frames body
          (machine.enter scope)).moves.leave?
        simp only [Machine.within, left]
        exact inside

private theorem apply_documented (faultless : Builtin.AllFaultless builtins) {frames : Nat}
    (each : DocumentedWithin builtins frames) (name : String) (args : List Binary64)
    {machine : Machine σ} (bodies : machine.session.Meaningful) :
    (apply builtins (evaluate builtins frames) name args machine).Documented := by
  cases cached : machine.session.cache.find? (.ofCall name args) with
  | some result =>
    rw [apply_of_present cached]
    exact .ok
  | none =>
    rw [apply_of_absent cached]
    apply (applyAfresh_documented faultless each name args bodies).andThen
    intro result
    exact .ok

/-- With faultless builtins every tree with a meaning fails for documented causes only. -/
theorem documentedWithin (faultless : Builtin.AllFaultless builtins) (frames : Nat) :
    DocumentedWithin builtins frames := by
  induction frames using Nat.strongRecOn with
  | ind frames ih =>
    intro expr machine meaningful bodies
    match frames, meaningful with
    | 0, _ => exact .because .stackLimit
    | _ + 1, .number => exact .ok
    | _ + 1, .var =>
      rw [evaluate]
      cases machine.session.environment.find? _ with
      | some value => exact .ok
      | none => exact .because .undefinedName
    | frames + 1, @Meaningful.binary op left right _ known first second =>
      have shallower := ih frames (by omega)
      have undisturbed := (Guarantee.evaluate_undisturbed builtins frames left machine).moves
      rw [evaluate_binary]
      apply (shallower left machine first bodies).andThen
      intro x
      apply (shallower right _ second (bodies.of_eq undisturbed.functions)).andThen
      intro y
      obtain ⟨value, applied⟩ := known.exists_apply x y
      rw [applied]
      exact .ok
    | frames + 1, .neg operand =>
      rw [evaluate_neg]
      apply (ih frames (by omega) _ machine operand bodies).andThen
      intro x
      exact .ok
    | 1, .call _ => exact .because .stackLimit
    | 2, .call _ => exact .because .stackLimit
    | inner + 3, @Meaningful.call name args _ each =>
      have deeper := ih inner (by omega)
      have undisturbed := (Guarantee.evaluateAll_kept
        (Guarantee.evaluate_undisturbed builtins inner) args machine).moves
      rw [evaluate_call]
      apply (evaluateAll_documented deeper each bodies).andThen
      intro values
      exact apply_documented faultless deeper name values (bodies.of_eq undisturbed.functions)

end Expr

namespace Statement

private theorem slots_documented {frames : Nat} (each : Expr.DocumentedWithin builtins frames)
    {params : List Expr} (meaningful : ∀ param ∈ params, param.Meaningful) {machine : Machine σ}
    (bodies : machine.session.Meaningful) :
    (slots (Expr.evaluate builtins frames) params machine).Documented := by
  induction params generalizing machine with
  | nil => exact .ok
  | cons param rest ih =>
    obtain ⟨first, others⟩ := List.forall_mem_cons.mp meaningful
    have undisturbed := (Guarantee.slot_kept (Guarantee.evaluate_undisturbed builtins frames) param
      machine).moves
    have named : (slot (Expr.evaluate builtins frames) param machine).Documented := by
      cases param with
      | var name pos => exact .ok
      | _ =>
        apply (each _ machine first bodies).andThen
        intro x
        exact .ok
    rw [slots_cons]
    apply named.andThen
    intro slot
    apply (ih others (bodies.of_eq undisturbed.functions)).andThen
    intro more
    exact .ok

theorem perform_documented (faultless : Builtin.AllFaultless builtins) (frames : Nat)
    {statement : Option Statement} (meaningful : ∀ asked ∈ statement, asked.Meaningful)
    {machine : Machine σ} (bodies : machine.session.Meaningful) :
    (perform builtins frames statement machine).Documented := by
  have each := Expr.documentedWithin faultless (allowance frames statement)
  rw [perform_eq_performWith]
  match statement with
  | none => exact .ok
  | some (.expression expr) =>
    exact (each expr machine (meaningful _ rfl) bodies).andThen fun _ => .ok
  | some (.constant name expr _) =>
    exact (each expr machine (meaningful _ rfl) bodies).andThen fun _ => .ok
  | some (.clause name params body _) =>
    exact (slots_documented each (meaningful _ rfl).1 bodies).andThen fun _ => .ok

theorem perform_meaningful (builtins : Table (Builtin σ)) (frames : Nat)
    {statement : Option Statement} (meaningful : ∀ asked ∈ statement, asked.Meaningful)
    {machine : Machine σ} (bodies : machine.session.Meaningful) :
    (perform builtins frames statement machine).2.session.Meaningful := by
  have undisturbed := Guarantee.evaluated_moves
    (Guarantee.evaluate_undisturbed builtins (allowance frames statement)) statement machine
  have later := bodies.of_eq undisturbed.functions
  have performed := perform_performed builtins frames statement machine
  generalize perform builtins frames statement machine = outcome at performed ⊢
  cases performed with
  | constant name expr pos result => exact later.of_eq rfl
  | clause name params body pos pattern => exact later.appendClause name (meaningful _ rfl).2
  | _ => exact later

end Statement

namespace Interpreter

/-- What holds whenever the next text is fed: builtins are faultless, statements can run, all bodies
have a meaning, and every text so far was counted. -/
structure Sane (fed : Nat) (interpreter : Interpreter σ) : Prop where
  faultless : Builtin.AllFaultless interpreter.builtins
  settable : ∃ frames, interpreter.limit.budget = .ok frames
  meaningful : interpreter.session.Meaningful
  count : interpreter.count = fed

theorem sane_create (draw : σ → Binary64 × σ) (constants : Table Binary64) (policy : CachePolicy)
    {limit : Int} (settable : limit ≤ FrameLimit.greatest) (hidden : σ) :
    (create (Standard.builtins draw) constants policy (.frames limit) hidden).Sane 0 where
  faultless := Standard.builtins_faultless draw
  settable := ⟨max FrameLimit.least limit.toNat, if_neg (by omega)⟩
  meaningful := by
    intro name clause member
    cases member
  count := rfl

namespace Sane

variable {fed : Nat} {interpreter : Interpreter σ}

/-- A text makes an interpreter fail for documented causes only, and its number is told. -/
theorem feed_documented (sane : interpreter.Sane fed) {text : String} {failure : StatementFailure}
    (failed : (interpreter.feed text).1 = .error failure) :
    ∃ cause, failure = .rejected (fed + 1) cause ∧ cause.Documented := by
  obtain ⟨frames, budget⟩ := sane.settable
  have limit : interpreter.counted.limit = interpreter.limit := rfl
  have number : interpreter.counted.count = fed + 1 := congrArg (· + 1) sane.count
  simp only [feed, limit, budget, run, number] at failed
  rcases read : Statement.read frames text with (error | _) | statement <;>
    simp only [read] at failed
  · cases failed
    exact ⟨.malformed error, rfl, .malformed⟩
  · cases failed
    exact ⟨.stackLimit, rfl, .stackLimit⟩
  · have meaningful : ∀ asked ∈ statement, asked.Meaningful := by
      rintro asked rfl
      exact Statement.read_meaningful read
    have bodies : interpreter.counted.machine.session.Meaningful := sane.meaningful
    have documented := Statement.perform_documented sane.faultless frames meaningful bodies
    rcases ran : interpreter.counted.perform frames statement with ⟨reason | answer, after⟩ <;>
      simp only [ran] at failed
    · cases failed
      have known : reason.Documented := documented reason (congrArg Prod.fst ran)
      cases reason with
      | because cause => exact ⟨cause, rfl, known⟩
      | internal defect => cases known
    · cases failed

theorem feed (sane : interpreter.Sane fed) (text : String) :
    (interpreter.feed text).2.Sane (fed + 1) where
  faultless := by
    rw [show (interpreter.feed text).2.builtins = interpreter.builtins from
      serve_builtins interpreter (.feed text)]
    exact sane.faultless
  settable := by
    rw [feed_limit]
    exact sane.settable
  meaningful := by
    have counted : interpreter.counted.machine.session.Meaningful := sane.meaningful
    rcases interpreter.feed_cases text with ⟨failure, fed⟩ | ⟨frames, statement, -, read, fed⟩
    · rw [fed]
      exact counted
    · rw [fed]
      apply Statement.perform_meaningful interpreter.builtins frames _ counted
      rintro asked rfl
      exact Statement.read_meaningful read
  count := by rw [feed_count, sane.count]

theorem feedAll (sane : interpreter.Sane fed) (texts : List String) :
    (interpreter.feedAll texts).2.Sane (fed + texts.length) := by
  induction texts generalizing fed interpreter with
  | nil => exact sane
  | cons text rest ih =>
    rw [List.length_cons, Nat.add_comm rest.length, ← Nat.add_assoc]
    exact ih (sane.feed text)

end Sane

/-- Only documented errors come out. Feed any texts to a new interpreter with the standard builtins
under a limit that can be set: each one is counted, and its outcome is a number, a note, or a
documented cause under the number of the text, which the message tells together with the message of
the cause. Nothing else can happen: not even a clause that was added long ago holds an operator or a
node without a meaning, no scope is left open, and no operation on numbers fails. -/
theorem only_documented_errors (draw : σ → Binary64 × σ) (constants : Table Binary64)
    (policy : CachePolicy) (limit : Int) (settable : limit ≤ FrameLimit.greatest) (hidden : σ)
    (texts : List String) (text : String) (before : Interpreter σ)
    (reached : ((create (Standard.builtins draw) constants policy (.frames limit) hidden).feedAll
      texts).2 = before) :
    (before.feed text).2.count = texts.length + 1 ∧
      ((∃ value, (before.feed text).1 = .ok (.number value)) ∨
        (∃ note, (before.feed text).1 = .ok (.note note)) ∨
        ∃ failure cause, (before.feed text).1 = .error failure ∧
          failure = .rejected (texts.length + 1) cause ∧ cause.Documented ∧
          failure.message =
            "(Statement " ++ Nat.repr (texts.length + 1) ++ ") " ++ cause.message) := by
  have sane := (sane_create draw constants policy settable hidden).feedAll texts
  rw [reached, Nat.zero_add] at sane
  refine ⟨(sane.feed text).count, ?_⟩
  rcases outcome : (before.feed text).1 with failure | (value | note)
  · obtain ⟨cause, rfl, documented⟩ := sane.feed_documented outcome
    exact .inr (.inr ⟨_, cause, rfl, rfl, documented, rfl⟩)
  · exact .inl ⟨value, rfl⟩
  · exact .inr (.inl ⟨note, rfl⟩)

end Interpreter

/-- The standard builtins and constants, with a source of random numbers that yields zeros. -/
def standardInterpreter (limit : Int) : Interpreter Unit :=
  .create (Standard.builtins fun state => (.zero false, state)) Standard.constants .session
    (.frames limit) ()

/-- A division by zero, and a power of its result that no real number is. -/
def cornerTexts : List String :=
  ["let f(x) = x / 0", "(-f(1)) ^ 0.5 + ln(-1)"]

/-- The third text calls a builtin with one argument too few; it is blamed for that alone. -/
theorem missing_argument_documented :
    10000 ≤ FrameLimit.greatest ∧
      (((standardInterpreter 10000).feedAll cornerTexts).2.feed "max(f(1))").2.count = 3 ∧
      ∃ failure cause,
        (((standardInterpreter 10000).feedAll cornerTexts).2.feed "max(f(1))").1 =
            .error failure ∧
          failure = .rejected 3 cause ∧ cause.Documented ∧
          failure.message = "(Statement " ++ Nat.repr 3 ++ ") " ++ cause.message := by
  have settable : 10000 ≤ FrameLimit.greatest := by decide
  obtain ⟨count, outcome⟩ := Interpreter.only_documented_errors (fun state : Unit =>
    (Binary64.zero false, state)) Standard.constants .session 10000 settable () cornerTexts
    "max(f(1))" ((standardInterpreter 10000).feedAll cornerTexts).2 rfl
  have failed : (((standardInterpreter 10000).feedAll cornerTexts).2.feed "max(f(1))").1 =
      .error (.rejected 3 (.arity "max" 2 1)) := by decide +kernel
  refine ⟨settable, count, ?_⟩
  rcases outcome with ⟨value, answered⟩ | ⟨note, answered⟩ | rejected
  · rw [failed] at answered
    cases answered
  · rw [failed] at answered
    cases answered
  · exact rejected

/-- Under a limit that cannot be set a number has no value, and no cause either. -/
theorem limit_beyond_greatest_undocumented :
    ¬∀ (limit : Int) (text : String),
      (∃ answer, ((standardInterpreter limit).feed text).1 = .ok answer) ∨
        ∃ cause, ((standardInterpreter limit).feed text).1 = .error (.rejected 1 cause) := by
  intro documented
  have failed : ((standardInterpreter 2147483648).feed "1").1 =
      .error (.internal .limitTooLarge) := by decide +kernel
  rcases documented 2147483648 "1" with ⟨answer, answered⟩ | ⟨cause, rejected⟩
  · rw [failed] at answered
    cases answered
  · rw [failed] at rejected
    cases rejected

end Calculator

import Mathlib.Data.List.Sort
import Calculator.Proofs.Evaluation.Dispatch
import Calculator.Proofs.Statement.Composition

/-! The names that an interpreter knows. They are listed from three tables, while an expression
looks for a name in the scopes and among earlier results first. No scope but the global one is open
between two statements and no result outlives its function, so the list holds exactly the names that
mean something. -/

namespace Calculator

variable {σ : Type}

/-- With no local scope open, a name means the value of a global constant. -/
theorem Environment.find?_of_locals_eq_nil {environment : Environment}
    (closed : environment.locals = []) (name : String) :
    environment.find? name = environment.globals.get? name := by
  simp [find?, closed]

theorem Expr.evaluate_var_undefinedName_iff {builtins : Table (Builtin σ)} {frames : Nat}
    {name : String} {place : Option Nat} {machine : Machine σ} :
    ((var name place).evaluate builtins (frames + 1) machine).1 =
        .error (.because (.undefinedName name)) ↔
      machine.session.environment.find? name = none := by
  rw [evaluate]
  cases machine.session.environment.find? name <;> simp

namespace Session

/-- The name is that of a global constant, of a builtin or of a function. -/
def Known (builtins : Table (Builtin σ)) (session : Session) (name : String) : Prop :=
  name ∈ session.environment.globals.names ∨ name ∈ builtins.names ∨
    name ∈ session.functions.names

variable {builtins : Table (Builtin σ)} {session : Session} {name other : String}

theorem known_define {value : Binary64} :
    { session with environment := session.environment.define other value }.Known builtins name ↔
      session.Known builtins name ∨ name = other := by
  have globals : name ∈ (session.environment.define other value).globals.names ↔
      name ∈ session.environment.globals.names ∨ name = other := Table.mem_names_set
  simp only [Known, globals]
  tauto

theorem known_appendClause {clause : Clause} :
    (session.appendClause other clause).Known builtins name ↔
      session.Known builtins name ∨ name = other := by
  have functions : name ∈ (session.appendClause other clause).functions.names ↔
      name ∈ session.functions.names ∨ name = other := Table.mem_names_set
  have environment : (session.appendClause other clause).environment = session.environment := rfl
  simp only [Known, functions, environment]
  tauto

end Session

namespace Interpreter

variable {interpreter : Interpreter σ} {name other : String} {names : List String}

theorem mem_insertName : other ∈ insertName name names ↔ other = name ∨ other ∈ names := by
  induction names with
  | nil => simp [insertName]
  | cons first rest ih =>
    rw [insertName]
    split_ifs with less same
    · rw [List.mem_cons]
    · subst same
      simp
    · rw [List.mem_cons, List.mem_cons, ih, or_left_comm]

theorem pairwise_insertName (increasing : names.Pairwise (· < ·)) :
    (insertName name names).Pairwise (· < ·) := by
  induction names with
  | nil => exact List.pairwise_singleton _ _
  | cons first rest ih =>
    obtain ⟨least, ordered⟩ := List.pairwise_cons.mp increasing
    rw [insertName]
    split_ifs with less same
    · refine List.pairwise_cons.mpr ⟨?_, increasing⟩
      intro other member
      rcases List.mem_cons.mp member with rfl | member
      · exact less
      · exact String.lt_trans less (least other member)
    · exact increasing
    · have greater : first < name := by
        apply String.not_le.mp
        intro below
        exact same (String.le_antisymm below (String.not_lt.mp less))
      refine List.pairwise_cons.mpr ⟨?_, ih ordered⟩
      intro other member
      rcases mem_insertName.mp member with rfl | member
      · exact greater
      · exact least other member

theorem knownNames_increasing (interpreter : Interpreter σ) :
    interpreter.knownNames.Pairwise (· < ·) := by
  rw [knownNames]
  generalize interpreter.session.environment.globals.names ++ interpreter.builtins.names ++
    interpreter.session.functions.names = names
  induction names with
  | nil => exact List.Pairwise.nil
  | cons name rest ih => exact pairwise_insertName ih

theorem mem_knownNames :
    name ∈ interpreter.knownNames ↔ interpreter.session.Known interpreter.builtins name := by
  have listed (names : List String) : name ∈ names.foldr insertName [] ↔ name ∈ names := by
    induction names with
    | nil => rfl
    | cons first rest ih => rw [List.foldr_cons, mem_insertName, ih, List.mem_cons]
  rw [knownNames, listed, List.mem_append, List.mem_append, or_assoc]
  rfl

theorem knownNames_eq_of_mem_iff {first second : Interpreter σ}
    (same : ∀ name, name ∈ first.knownNames ↔ name ∈ second.knownNames) :
    first.knownNames = second.knownNames :=
  (knownNames_increasing first).eq_of_mem_iff (knownNames_increasing second) same

end Interpreter

namespace Statement

/-- The name that a statement gives a meaning to if it has an answer. -/
def definedName? : Option Statement → Option String
  | some (.constant name _ _) => some name
  | some (.clause name _ _ _) => some name
  | _ => none

variable (builtins : Table (Builtin σ)) (frames : Nat) (statement : Option Statement)
  (machine : Machine σ)

/-- A statement evaluates its expressions, which disturbs nothing, and has its effect then. -/
theorem exists_performed :
    ∃ middle, machine.Undisturbed middle ∧
      Performed middle statement (perform builtins frames statement machine) := by
  have moves := Guarantee.evaluated_moves
    (Guarantee.evaluate_undisturbed builtins (allowance frames statement)) statement machine
  exact ⟨_, moves, perform_performed builtins frames statement machine⟩

theorem perform_locals :
    (perform builtins frames statement machine).2.session.environment.locals =
      machine.session.environment.locals := by
  obtain ⟨middle, undisturbed, performed⟩ := exists_performed builtins frames statement machine
  rw [← undisturbed.environment]
  generalize perform builtins frames statement machine = outcome at performed ⊢
  cases performed <;> rfl

/-- The only name that becomes known is the one that a statement with an answer defines. -/
theorem perform_known (name : String) :
    (perform builtins frames statement machine).2.session.Known builtins name ↔
      machine.session.Known builtins name ∨
        (∃ answer, (perform builtins frames statement machine).1 = .ok answer) ∧
          definedName? statement = some name := by
  obtain ⟨middle, undisturbed, performed⟩ := exists_performed builtins frames statement machine
  have same : machine.session.Known builtins name ↔ middle.session.Known builtins name := by
    rw [Session.Known, Session.Known, undisturbed.environment, undisturbed.functions]
  rw [same]
  generalize perform builtins frames statement machine = outcome at performed ⊢
  cases performed with
  | failed failure => simp
  | nothing => simp [definedName?]
  | computed expr result => simp [definedName?]
  | constant defined expr pos result =>
    have grown : (middle.define defined result).session.Known builtins name ↔ _ :=
      Session.known_define
    simp [grown, definedName?, eq_comm]
  | clause defined params body pos pattern =>
    have grown : (middle.appendClause defined ⟨pattern, body⟩).session.Known builtins name ↔ _ :=
      Session.known_appendClause
    simp [grown, definedName?, eq_comm]

end Statement

namespace Interpreter

variable {interpreter : Interpreter σ} {name : String}

theorem serve_locals (interpreter : Interpreter σ) (request : Request) :
    (interpreter.serve request).session.environment.locals =
      interpreter.session.environment.locals := by
  have start : (interpreter.prepared request).machine.session.environment.locals =
      interpreter.session.environment.locals := by
    cases request <;> rfl
  apply serve_induction (fun machine => machine.session.environment.locals =
    interpreter.session.environment.locals) interpreter request start
  intro frames statement _
  rw [Statement.perform_locals, start]

theorem serveAll_locals (interpreter : Interpreter σ) (requests : List Request) :
    (interpreter.serveAll requests).session.environment.locals =
      interpreter.session.environment.locals := by
  induction requests generalizing interpreter with
  | nil => rfl
  | cons request rest ih => exact (ih _).trans (serve_locals interpreter request)

/-- The request has an answer, and gives the name a meaning. -/
def Defines (interpreter : Interpreter σ) (request : Request) (name : String) : Prop :=
  ∃ frames statement answer,
    request.performed? interpreter.limit = some (frames, statement) ∧
      ((interpreter.prepared request).perform frames statement).1 = .ok answer ∧
      Statement.definedName? statement = some name

def Fails (interpreter : Interpreter σ) : Request → Prop
  | .feed text => ∃ failure, (interpreter.feed text).1 = .error failure
  | .perform frames statement =>
    ∃ failure, (interpreter.perform frames statement).1 = .error failure

theorem Defines.unique {request : Request} {other : String}
    (first : interpreter.Defines request name) (second : interpreter.Defines request other) :
    other = name := by
  obtain ⟨frames, statement, _, performed, -, defined⟩ := first
  obtain ⟨_, _, _, again, -, defined'⟩ := second
  rw [performed] at again
  cases again
  rw [defined] at defined'
  exact (Option.some.inj defined').symm

theorem mem_knownNames_serve {request : Request} :
    name ∈ (interpreter.serve request).knownNames ↔
      name ∈ interpreter.knownNames ∨ interpreter.Defines request name := by
  have counted : (interpreter.prepared request).session.Known interpreter.builtins name ↔
      name ∈ interpreter.knownNames := by
    rw [mem_knownNames]
    cases request <;> rfl
  rw [mem_knownNames, serve_builtins, ← counted, serve_eq, Defines]
  cases performed : request.performed? interpreter.limit with
  | none => simp
  | some asked =>
    obtain ⟨frames, statement⟩ := asked
    rw [← prepared_builtins interpreter request]
    apply (Statement.perform_known _ frames statement _ name).trans
    apply or_congr_right
    constructor
    · rintro ⟨⟨answer, answered⟩, defined⟩
      exact ⟨frames, statement, answer, rfl, answered, defined⟩
    · rintro ⟨_, _, answer, ⟨⟩, answered, defined⟩
      exact ⟨⟨answer, answered⟩, defined⟩

theorem exists_knownNames_serve_subset (interpreter : Interpreter σ) (request : Request) :
    ∃ name, (interpreter.serve request).knownNames ⊆ name :: interpreter.knownNames := by
  by_cases some : ∃ name, interpreter.Defines request name
  · obtain ⟨name, defines⟩ := some
    refine ⟨name, fun other member => ?_⟩
    rcases mem_knownNames_serve.mp member with earlier | also
    · exact List.mem_cons_of_mem _ earlier
    · rw [defines.unique also]
      exact List.mem_cons_self
  · refine ⟨"", fun other member => ?_⟩
    rcases mem_knownNames_serve.mp member with earlier | defines
    · exact List.mem_cons_of_mem _ earlier
    · exact absurd ⟨other, defines⟩ some

theorem knownNames_subset_serveAll (interpreter : Interpreter σ) (requests : List Request) :
    interpreter.knownNames ⊆ (interpreter.serveAll requests).knownNames := by
  induction requests generalizing interpreter with
  | nil => exact List.Subset.refl _
  | cons request rest ih =>
    intro name member
    exact ih _ (mem_knownNames_serve.mpr (.inl member))

theorem knownNames_serve_of_not_defines {request : Request}
    (nothing : ∀ name, ¬interpreter.Defines request name) :
    (interpreter.serve request).knownNames = interpreter.knownNames := by
  apply knownNames_eq_of_mem_iff
  intro name
  rw [mem_knownNames_serve, or_iff_left (nothing name)]

theorem knownNames_serve_of_definedName?_eq_none {request : Request} {frames : Nat}
    {statement : Option Statement}
    (performed : request.performed? interpreter.limit = some (frames, statement))
    (undefined : Statement.definedName? statement = none) :
    (interpreter.serve request).knownNames = interpreter.knownNames := by
  apply knownNames_serve_of_not_defines
  rintro name ⟨_, _, _, again, -, defined⟩
  rw [performed] at again
  cases again
  rw [undefined] at defined
  cases defined

theorem knownNames_serve_of_fails {request : Request} (fails : interpreter.Fails request) :
    (interpreter.serve request).knownNames = interpreter.knownNames := by
  cases request with
  | perform frames statement =>
    obtain ⟨failure, failed⟩ := fails
    apply knownNames_serve_of_not_defines
    rintro name ⟨_, _, answer, ⟨⟩, answered, -⟩
    exact nomatch failed.symm.trans answered
  | feed text =>
    obtain ⟨failure, failed⟩ := fails
    rcases interpreter.feed_cases text with ⟨_, fed⟩ | ⟨frames, statement, budget, read, fed⟩
    · -- nothing was performed, the text was only counted
      rw [serve, fed]
      rfl
    · apply knownNames_serve_of_not_defines
      rintro name ⟨_, _, answer, performed, answered, -⟩
      simp only [Request.performed?, budget, read] at performed
      cases performed
      have succeeded : (Statement.perform interpreter.builtins frames statement
        interpreter.counted.machine).1 = .ok answer := answered
      simp [fed, succeeded, Except.mapError] at failed

/-- Between two statements the known names are those that have a value or can be called. -/
theorem mem_knownNames_iff_usable
    (closed : interpreter.session.environment.locals = [])
    (dispatchable : interpreter.session.Dispatchable interpreter.builtins) (name : String)
    (frames : Nat) (place : Option Nat) :
    name ∈ interpreter.knownNames ↔
      ((Expr.var name place).evaluate interpreter.builtins (frames + 3) interpreter.machine).1 ≠
          .error (.because (.undefinedName name)) ∨
        ∃ args values after,
          Expr.evaluateAll (Expr.evaluate interpreter.builtins frames) args interpreter.machine =
              (.ok values, after) ∧
            ((Expr.call name args place).evaluate interpreter.builtins (frames + 3)
              interpreter.machine).1 ≠ .error (.because (.undefinedFunction name)) := by
  rw [mem_knownNames, Session.Known, Table.mem_names_iff, Table.mem_names_iff,
    Table.mem_names_iff, ← Environment.find?_of_locals_eq_nil closed, ← not_and_or]
  apply or_congr (not_congr Expr.evaluate_var_undefinedName_iff.symm)
  constructor
  · intro callable
    -- an empty list of arguments has values, and the call gets to its dispatch
    refine ⟨[], [], _, rfl, ?_⟩
    exact fun undefined => callable
      ((Expr.evaluate_call_undefinedFunction_iff rfl dispatchable place).mp undefined)
  · rintro ⟨args, values, after, evaluated, found⟩ nothing
    exact found
      ((Expr.evaluate_call_undefinedFunction_iff evaluated dispatchable place).mpr nothing)

end Interpreter

/-- A text with one token, which is a word, is read as a variable. -/
theorem Statement.readAs_variable {text : String} {word ending : Token}
    (lexed : Token.scan text = [word, ending]) (kind : word.kind = .word) :
    ReadAs text (.expression (.var word.text (some word.pos))) := by
  have single : Token.body text = [word] := by rw [Token.body, lexed]; rfl
  apply readAs_of_sentence
  rw [single]
  exact .expression (.sum_of_signed (.unsigned (.name kind)))

/-- The known names are exactly the usable ones. After any run that starts with a new interpreter
they are listed in strictly increasing order, and a name is among them exactly when it is not
undefined as a variable, or when some call of it whose arguments have values does not fail for an
undefined function; a text with one token, which is a word, is read as the variable of that name.
No known name is ever lost along a run, one request adds at most one, and a request that fails, asks
for nothing or asks for a value adds none. -/
theorem Interpreter.known_names_usable (builtins : Table (Builtin σ))
    (constants : Table Binary64) (policy : CachePolicy) (limit : FrameLimit) (hidden : σ)
    (requests : List Request) (now : Interpreter σ)
    (reached : (create builtins constants policy limit hidden).serveAll requests = now) :
    now.knownNames.Pairwise (· < ·) ∧
      (∀ name frames place,
        name ∈ now.knownNames ↔
          ((Expr.var name place).evaluate builtins (frames + 3) now.machine).1 ≠
              .error (.because (.undefinedName name)) ∨
            ∃ args values after,
              Expr.evaluateAll (Expr.evaluate builtins frames) args now.machine =
                  (.ok values, after) ∧
                ((Expr.call name args place).evaluate builtins (frames + 3) now.machine).1 ≠
                  .error (.because (.undefinedFunction name))) ∧
      (∀ text word ending, Token.scan text = [word, ending] → word.kind = .word →
        Statement.ReadAs text (.expression (.var word.text (some word.pos)))) ∧
      (∀ later, now.knownNames ⊆ (now.serveAll later).knownNames) ∧
      ∀ request,
        (∃ name, (now.serve request).knownNames ⊆ name :: now.knownNames) ∧
          (now.Fails request → (now.serve request).knownNames = now.knownNames) ∧
          ∀ frames statement, request.performed? now.limit = some (frames, statement) →
            (statement = none ∨ ∃ expr, statement = some (.expression expr)) →
            (now.serve request).knownNames = now.knownNames := by
  have nothing : (create builtins constants policy limit hidden).session.Dispatchable builtins := by
    intro key result cached
    cases cached
  have dispatchable := serveAll_dispatchable nothing requests
  have given := serveAll_builtins (create builtins constants policy limit hidden) requests
  have closed := serveAll_locals (create builtins constants policy limit hidden) requests
  rw [reached] at dispatchable given closed
  have given : now.builtins = builtins := given
  rw [← given] at dispatchable ⊢
  refine ⟨knownNames_increasing now, mem_knownNames_iff_usable closed dispatchable,
    fun text word ending => Statement.readAs_variable, knownNames_subset_serveAll now, ?_⟩
  intro request
  refine ⟨exists_knownNames_serve_subset now request, knownNames_serve_of_fails, ?_⟩
  intro frames statement performed valueless
  apply knownNames_serve_of_definedName?_eq_none performed
  rcases valueless with rfl | ⟨expr, rfl⟩ <;> rfl

/-- `f` is a constant and a function besides, and its only result is remembered. -/
def doublyNamed : Interpreter Unit :=
  (Interpreter.create identityOnly {} .redefine .standard ()).serveAll
    [.feed "const f = 1", .feed "let f(0) = f", .feed "f(0)"]

/-- The name of two things is listed once. A name that is not listed is undefined either way, and
stays so when its definition fails; once it is defined it stands in its place. -/
theorem doubly_named_listed_once :
    doublyNamed.knownNames = ["f", "same"] ∧
      ((Expr.var "g" none).evaluate identityOnly (6 + 3) doublyNamed.machine).1 =
        .error (.because (.undefinedName "g")) ∧
      ((Expr.call "g" [.number (.zero false) none] none).evaluate identityOnly (6 + 3)
        doublyNamed.machine).1 = .error (.because (.undefinedFunction "g")) ∧
      doublyNamed.Fails (.feed "const g = h") ∧
      (doublyNamed.serve (.feed "const g = h")).knownNames = ["f", "same"] ∧
      (doublyNamed.serve (.feed "let g(x) = h")).knownNames = ["f", "g", "same"] := by
  have listed : doublyNamed.knownNames = ["f", "same"] := by decide +kernel
  have fails : doublyNamed.Fails (.feed "const g = h") :=
    ⟨.rejected 4 (.undefinedName "h"), by decide +kernel⟩
  obtain ⟨-, usable, -, -, step⟩ := Interpreter.known_names_usable identityOnly {} .redefine
    .standard () _ doublyNamed rfl
  have unusable := (usable "g" 6 none).not.mp (by rw [listed]; decide)
  obtain ⟨undefined, uncallable⟩ := not_or.mp unusable
  refine ⟨listed, not_not.mp undefined, ?_, fails, ?_, by decide +kernel⟩
  · by_contra callable
    exact uncallable ⟨_, _, _, rfl, callable⟩
  · rw [(step _).2.1 fails, listed]

def blankInterpreter : Interpreter Unit := .create {} {} .session .standard ()

/-- A call whose argument fails does not get as far as to find its function undefined: so some call
of an unknown name does not fail for it, unless only arguments with values count. -/
theorem failing_argument_hides_unknown_name :
    (blankInterpreter.feed "g(h)").1 = .error (.rejected 1 (.undefinedName "h")) ∧
      ¬("g" ∈ blankInterpreter.knownNames ↔
        ((Expr.var "g" none).evaluate {} 1000 blankInterpreter.machine).1 ≠
            .error (.because (.undefinedName "g")) ∨
          ∃ args, ((Expr.call "g" args none).evaluate {} 1000 blankInterpreter.machine).1 ≠
            .error (.because (.undefinedFunction "g"))) := by
  refine ⟨by decide +kernel, fun usable => ?_⟩
  have unknown : "g" ∉ blankInterpreter.knownNames := by decide
  have blamed : ((Expr.call "g" [.var "h" none] none).evaluate {} 1000
      blankInterpreter.machine).1 = .error (.because (.undefinedName "h")) := rfl
  apply unknown
  apply usable.mpr
  refine .inr ⟨[.var "h" none], ?_⟩
  rw [blamed]
  nofun

end Calculator

import Calculator.Proofs.Evaluation.Completions
import Calculator.Proofs.Session.Permanence

/-! Remembered results are fresh under the redefine policy: each was computed when its function had
the very clauses that it has now. A further clause takes away all results of its function, also
those that its own parameters asked for, and no other statement takes any away. -/

namespace Calculator

variable {σ : Type} {builtins : Table (Builtin σ)}

namespace Session

/-- Every result is what the newest completion under its key put there, and the function had the
same clauses then as now. -/
def Fresh (history : List Completion) (session : Session) : Prop :=
  ∀ key result, session.cache.find? key = some result →
    ∃ completion earlier, Completion.newest? key history = some completion ∧
      completion.value = result ∧ completion.kept = some earlier ∧
      earlier.clauses key.name = session.clauses key.name

/-- Under the redefine policy a further clause takes away the results of its function. -/
theorem find?_appendClause {session : Session} (policy : session.cache.policy = .redefine)
    (name : String) (clause : Clause) (key : CallKey) :
    (session.appendClause name clause).cache.find? key =
      if key.name = name then none else session.cache.find? key := by
  simp only [appendClause, ResultCache.redefined, policy]
  exact ResultCache.find?_forget _ name key

namespace Fresh

variable {history : List Completion}

theorem of_eq {session session' : Session} (fresh : session.Fresh history)
    (cache : session'.cache = session.cache) (functions : session'.functions = session.functions) :
    session'.Fresh history := by
  intro key result cached
  rw [cache] at cached
  rw [Session.clauses, functions]
  exact fresh key result cached

/-- What a course puts into the memory belongs to the functions of that moment. -/
theorem course {around : List Call} {before after : Machine σ} {done : List Completion}
    (fresh : before.session.Fresh history) (course : Course around before done after) :
    after.session.Fresh (history ++ done) := by
  intro key result cached
  have functions := course.undisturbed.functions
  rw [course.find?_eq key] at cached
  rw [Completion.newest?_append, Session.clauses, functions]
  cases newest : Completion.newest? key done with
  | none =>
    rw [newest] at cached
    exact fresh key result cached
  | some completion =>
    rw [newest] at cached
    obtain ⟨member, stores⟩ := Completion.mem_of_newest? newest
    obtain ⟨earlier, kept⟩ := Option.isSome_iff_exists.mp stores.1
    have same := course.functions_of_kept member kept
    refine ⟨completion, earlier, rfl, by simpa using cached, kept, ?_⟩
    rw [Session.clauses, same]

/-- Results of other functions stay fresh, and those of the function are gone. -/
theorem appendClause {session : Session} (fresh : session.Fresh history)
    (policy : session.cache.policy = .redefine) (name : String) (clause : Clause) :
    (session.appendClause name clause).Fresh history := by
  intro key result cached
  rw [find?_appendClause policy] at cached
  by_cases same : key.name = name
  · rw [if_pos same] at cached
    cases cached
  · rw [if_neg same] at cached
    rw [clauses_appendClause_of_ne session same]
    exact fresh key result cached

end Fresh

end Session

namespace Statement

theorem perform_remembers_of_not_clause (frames : Nat) (statement : Option Statement)
    (machine : Machine σ)
    (unextended : ∀ name params body pos answer, statement = some (.clause name params body pos) →
      (perform builtins frames statement machine).1 ≠ .ok answer) :
    machine.Remembers (perform builtins frames statement machine).2 := by
  have grown := (evaluated_course builtins frames statement machine).remembers
  have performed := perform_performed builtins frames statement machine
  generalize perform builtins frames statement machine = outcome at performed unextended ⊢
  cases performed with
  | clause name params body pos pattern =>
    exact absurd rfl (unextended name params body pos _ rfl)
  | _ => exact grown

/-- Under the redefine policy a clause that is added leaves no result of its function, and the
others as its parameters left them. -/
theorem find?_perform_clause {frames : Nat} {name : String} {params : List Expr} {body : Expr}
    (pos : Option Nat) {machine : Machine σ} {answer : Answer}
    (policy : machine.session.cache.policy = .redefine)
    (added : (perform builtins frames (some (.clause name params body pos)) machine).1 = .ok answer)
    (key : CallKey) :
    (perform builtins frames (some (.clause name params body pos)) machine).2.session.cache.find?
        key =
      if key.name = name then none
      else
        (slots (Expr.evaluate builtins (frames - 1)) params machine).2.session.cache.find? key := by
  have kept := (slots_course (Expr.evaluate_course builtins (frames - 1) []) params
    machine).undisturbed.policy
  rw [perform_eq_performWith] at added ⊢
  simp only [performWith, allowance] at added ⊢
  rcases ran : slots (Expr.evaluate builtins (frames - 1)) params machine with
    ⟨failure | pattern, after⟩ <;> rw [ran] at added kept
  · cases added
  · exact Session.find?_appendClause (kept.trans policy) name _ key

theorem perform_fresh (builtins : Table (Builtin σ)) {history : List Completion}
    {machine : Machine σ} (fresh : machine.session.Fresh history)
    (policy : machine.session.cache.policy = .redefine) (frames : Nat)
    (statement : Option Statement) :
    (perform builtins frames statement machine).2.session.Fresh
      (history ++ completions builtins frames statement machine) := by
  have course := evaluated_course builtins frames statement machine
  have sound := fresh.course course
  have same := course.undisturbed.policy.trans policy
  have performed := perform_performed builtins frames statement machine
  generalize perform builtins frames statement machine = outcome at performed ⊢
  cases performed with
  | constant name expr pos result => exact sound.of_eq rfl rfl
  | clause name params body pos pattern => exact sound.appendClause same name ⟨pattern, body⟩
  | _ => exact sound

end Statement

namespace Interpreter

theorem serve_fresh {interpreter : Interpreter σ} {history : List Completion}
    (fresh : interpreter.session.Fresh history)
    (policy : interpreter.session.cache.policy = .redefine) (request : Request) :
    (interpreter.serve request).session.Fresh (history ++ interpreter.completions request) := by
  have start : (interpreter.prepared request).session.Fresh history := by
    cases request <;> exact fresh.of_eq rfl rfl
  have same : (interpreter.prepared request).session.cache.policy = .redefine := by
    cases request <;> exact policy
  simp only [completions]
  rw [serve_eq]
  cases performed : request.performed? interpreter.limit with
  | none => simpa using start
  | some asked =>
    have kept := Statement.perform_fresh interpreter.builtins start same asked.1 asked.2
    rw [← prepared_builtins interpreter request] at kept ⊢
    exact kept

theorem serveAll_fresh {interpreter : Interpreter σ} {history : List Completion}
    (fresh : interpreter.session.Fresh history)
    (policy : interpreter.session.cache.policy = .redefine) (requests : List Request) :
    (interpreter.serveAll requests).session.Fresh (history ++ interpreter.history requests) := by
  induction requests generalizing interpreter history with
  | nil =>
    rw [Interpreter.history, List.append_nil]
    exact fresh
  | cons request rest ih =>
    rw [Interpreter.history, ← List.append_assoc]
    exact ih (serve_fresh fresh policy request) ((serve_policy interpreter request).trans policy)

/-- The request adds a clause to the function within the frames, of which the definition itself
spends one and its parameters the rest. -/
def AddsClause (interpreter : Interpreter σ) (request : Request) (frames : Nat) (name : String)
    (params : List Expr) : Prop :=
  ∃ body pos answer,
    request.performed? interpreter.limit = some (frames, some (.clause name params body pos)) ∧
      ((interpreter.prepared request).perform frames (some (.clause name params body pos))).1 =
        .ok answer

theorem find?_serve_of_addsClause {interpreter : Interpreter σ} {request : Request} {frames : Nat}
    {name : String} {params : List Expr} (adds : interpreter.AddsClause request frames name params)
    (policy : interpreter.session.cache.policy = .redefine) (key : CallKey) :
    (interpreter.serve request).session.cache.find? key =
      if key.name = name then none
      else (Statement.slots (Expr.evaluate interpreter.builtins (frames - 1)) params
        (interpreter.prepared request).machine).2.session.cache.find? key := by
  obtain ⟨body, pos, answer, performed, added⟩ := adds
  have same : (interpreter.prepared request).machine.session.cache.policy = .redefine := by
    rw [prepared_cache]
    exact policy
  rw [serve_eq, performed, ← prepared_builtins interpreter request]
  exact Statement.find?_perform_clause pos same added key

theorem serve_remembers_of_not_addsClause {interpreter : Interpreter σ} {request : Request}
    (unextended : ∀ frames name params, ¬interpreter.AddsClause request frames name params) :
    interpreter.machine.Remembers (interpreter.serve request).machine := by
  have start : interpreter.machine.Remembers (interpreter.prepared request).machine := by
    intro key result cached
    rw [prepared_cache]
    exact cached
  rw [serve_eq]
  cases performed : request.performed? interpreter.limit with
  | none => exact start
  | some asked =>
    obtain ⟨frames, statement⟩ := asked
    intro key result cached
    apply Statement.perform_remembers_of_not_clause frames statement _ _ key result
    · exact start key result cached
    · rintro name params body pos answer rfl added
      exact unextended frames name params ⟨body, pos, answer, performed, added⟩

/-- Under the redefine policy every remembered result is fresh. After any run that starts with a
new interpreter, each result is the value of the newest completed call of its key, which was
remembered when the function had the same clauses as now. A request that adds a clause leaves no
result of its function, not even one that its own parameters asked for, and every other result as
the parameters left it; any other request, one that fails included, takes no result away. -/
theorem remembered_results_fresh (builtins : Table (Builtin σ)) (constants : Table Binary64)
    (limit : FrameLimit) (hidden : σ) (requests : List Request) (now : Interpreter σ)
    (reached : (create builtins constants .redefine limit hidden).serveAll requests = now) :
    (∀ key result, now.session.cache.find? key = some result →
      ∃ completion earlier,
        Completion.newest? key
            ((create builtins constants .redefine limit hidden).history requests) =
          some completion ∧
        completion.value = result ∧ completion.kept = some earlier ∧
        earlier.clauses key.name = now.session.clauses key.name) ∧
      ∀ request,
        (∀ frames name params, now.AddsClause request frames name params →
          ∀ key, (now.serve request).session.cache.find? key =
            if key.name = name then none
            else (Statement.slots (Expr.evaluate builtins (frames - 1)) params
              (now.prepared request).machine).2.session.cache.find? key) ∧
        ((∀ frames name params, ¬now.AddsClause request frames name params) →
          now.machine.Remembers (now.serve request).machine) := by
  have nothing : (create builtins constants .redefine limit hidden).session.Fresh [] := by
    intro key result cached
    cases cached
  have fresh := serveAll_fresh nothing rfl requests
  have given := serveAll_builtins (create builtins constants .redefine limit hidden) requests
  have policy := serveAll_policy (create builtins constants .redefine limit hidden) requests
  rw [reached] at fresh given policy
  refine ⟨fresh, fun request => ⟨?_, serve_remembers_of_not_addsClause⟩⟩
  intro frames name params adds key
  rw [find?_serve_of_addsClause adds policy key, given]
  rfl

end Interpreter

/-- A function on top of another, and a call of it. -/
def layeredRun : List Request :=
  let x : Expr := .var "x" none
  let literal (count : Int) : Expr := .number (.ofInt count) none
  [.perform 30 (some (.clause "f" [x] x none)),
    .perform 30 (some (.clause "g" [x] (.binary .add (.call "f" [x] none) (literal 1) none) none)),
    .perform 30 (some (.expression (.call "g" [literal 2] none)))]

/-- A clause of the lower function whose parameter asks the function itself. -/
def selfAskingClause : Request :=
  .perform 30 (some (.clause "f" [.call "f" [.number (.ofInt 1) none] none]
    (.number (.ofInt 2) none) none))

/-- The lower function was asked on behalf of the upper one. -/
def layeredSession : Interpreter Unit :=
  (Interpreter.create {} {} .redefine .standard ()).serveAll layeredRun

/-- The clause takes the results of the lower function away, also the one that its own parameter
asked for; the upper function keeps its result, which the newest completed call of it put there. -/
theorem lower_results_forgotten :
    layeredSession.session.cache.find? (.ofCall "f" [.ofInt 2]) = some (.ofInt 2) ∧
      (layeredSession.serve selfAskingClause).session.cache.find? (.ofCall "f" [.ofInt 2]) = none ∧
      (layeredSession.serve selfAskingClause).session.cache.find? (.ofCall "f" [.ofInt 1]) = none ∧
      (layeredSession.serve selfAskingClause).session.cache.find? (.ofCall "g" [.ofInt 2]) =
        some (.ofInt 3) ∧
      ∃ completion, Completion.newest? (.ofCall "g" [.ofInt 2])
          ((Interpreter.create {} {} .redefine .standard ()).history layeredRun) =
            some completion ∧
        completion.value = .ofInt 3 := by
  have lower : layeredSession.session.cache.find? (.ofCall "f" [.ofInt 2]) = some (.ofInt 2) := by
    decide +kernel
  have upper : layeredSession.session.cache.find? (.ofCall "g" [.ofInt 2]) = some (.ofInt 3) := by
    decide +kernel
  obtain ⟨fresh, served⟩ := Interpreter.remembered_results_fresh {} {} .standard () layeredRun
    layeredSession rfl
  have adds : layeredSession.AddsClause selfAskingClause 30 "f"
      [.call "f" [.number (.ofInt 1) none] none] :=
    ⟨_, _, .clauseAdded "f" [.literal (.ofInt 1)], rfl, by decide +kernel⟩
  have left := (served selfAskingClause).1 30 "f" _ adds
  refine ⟨lower, ?_, ?_, ?_, ?_⟩
  · rw [left]
    rfl
  · rw [left]
    rfl
  · rw [left]
    decide +kernel
  · obtain ⟨completion, -, newest, value, -, -⟩ := fresh _ _ upper
    exact ⟨completion, newest, value⟩

end Calculator

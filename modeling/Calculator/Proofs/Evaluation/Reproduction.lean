import Calculator.Proofs.Evaluation.Completions
import Calculator.Proofs.Evaluation.Transparency

namespace Calculator

variable {σ α : Type} {builtins : Table (Builtin σ)}

namespace Completion

/-- No argument is a negative zero, and the value is the one that is computed anew. -/
structure Reproducible (builtins : Table (Builtin σ)) (functions : Table (List Clause))
    (completion : Completion) : Prop where
  signless : completion.call.Signless
  yields : completion.call.Yields builtins functions completion.value

theorem Reproducible.value_eq {machine : Machine σ} {first second : Completion}
    (one : first.Reproducible builtins machine.session.functions)
    (other : second.Reproducible builtins machine.session.functions)
    (same : first.call.key = second.call.key) : first.value = second.value := by
  rw [Call.key, Call.key, CallKey.ofCall_of_ne one.signless, CallKey.ofCall_of_ne other.signless,
    CallKey.mk.injEq] at same
  obtain ⟨enough, computed⟩ := one.yields.and other.yields
  obtain ⟨this, that⟩ := computed enough (Nat.le_refl enough)
  have found := this machine rfl
  rw [same.1, same.2, that machine rfl] at found
  exact (Except.ok.inj found).symm

end Completion

/-- What is completed after an outcome starts from closed clauses and a faithful memory again. -/
theorem Mirrored.reproducible_then {afresh : Nat → Machine σ → Evaluated σ α} {before : Machine σ}
    {outcome : Evaluated σ α} (mirrored : Mirrored builtins afresh before outcome)
    (closed : before.session.Closed) {further : α → Machine σ → List Completion}
    (later : ∀ value middle, outcome = (.ok value, middle) → middle.session.Closed →
      middle.session.Faithful builtins → ∀ completion ∈ further value middle,
        completion.Reproducible builtins middle.session.functions) :
    ∀ completion ∈ outcome.thenCompletions further,
      completion.Reproducible builtins before.session.functions := by
  rcases outcome with ⟨failure | value, middle⟩
  · intro completion member
    cases member
  · have functions := mirrored.undisturbed.functions
    rw [← functions]
    exact later value middle rfl (closed.of_eq functions) mirrored.faithful

namespace Expr

variable (builtins) in
/-- Within these frames every call that is completed is reproducible. -/
def ReproducibleWithin (frames : Nat) : Prop :=
  ∀ (around : List Call) (expr : Expr) (machine : Machine σ), machine.session.Closed →
    machine.session.Faithful builtins →
    (∀ call ∈ expr.calls builtins frames machine, call.Signless) →
    ∀ completion ∈ expr.completions builtins frames around machine,
      completion.Reproducible builtins machine.session.functions

private theorem completionsAll_reproducible {frames : Nat}
    (mirrored : MirroredWithin builtins frames) (each : ReproducibleWithin builtins frames)
    (around : List Call) (exprs : List Expr) {machine : Machine σ}
    (closed : machine.session.Closed) (faithful : machine.session.Faithful builtins)
    (signless : ∀ call ∈ callsAll (evaluate builtins frames) (calls builtins frames) exprs machine,
      call.Signless) :
    ∀ completion ∈ completionsAll (evaluate builtins frames) (completions builtins frames around)
      exprs machine, completion.Reproducible builtins machine.session.functions := by
  induction exprs generalizing machine with
  | nil =>
    intro completion member
    cases member
  | cons expr rest ih =>
    have now : ∀ call ∈ expr.calls builtins frames machine, call.Signless :=
      fun call begun => signless call (List.mem_append_left _ begun)
    rw [completionsAll, List.forall_mem_append]
    refine ⟨each around expr machine closed faithful now, ?_⟩
    apply (mirrored expr machine closed faithful now).reproducible_then closed
    intro value middle ran closed faithful
    exact ih closed faithful fun call begun =>
      signless call (List.mem_append_right _ (by rw [ran]; exact begun))

private theorem completionsWithin_reproducible {frames : Nat}
    (each : ReproducibleWithin builtins frames) (around : List Call) {call : Call}
    {machine : Machine σ} (closed : machine.session.Closed)
    (faithful : machine.session.Faithful builtins)
    (absent : machine.session.cache.find? call.key = none)
    (signless : ∀ inner ∈ callsWithin builtins (calls builtins frames) call.name call.args machine,
      inner.Signless) :
    ∀ completion ∈ completionsWithin builtins (completions builtins frames around) call machine,
      completion.Reproducible builtins machine.session.functions := by
  rw [Call.key] at absent
  simp only [completionsWithin]
  cases given : builtins.get? call.name with
  | some builtin =>
    intro completion member
    cases member
  | none =>
    simp only [callsWithin, absent, given] at signless
    rcases selected : (machine.session.functions.get? call.name).bind
      (Clause.select? · call.args) with _ | ⟨scope, body⟩
    · intro completion member
      cases member
    · simp only [selected] at signless
      exact each around body (machine.enter scope) closed faithful signless

/-- A call that is completed is reproducible, as is what is completed inside it. -/
private theorem completionsOf_reproducible (pure : Builtin.AllPure builtins) {frames : Nat}
    (each : ReproducibleWithin builtins frames) (around : List Call) {call : Call}
    {machine : Machine σ} (closed : machine.session.Closed)
    (faithful : machine.session.Faithful builtins) (plain : call.Signless)
    (signless : ∀ inner ∈ callsWithin builtins (calls builtins frames) call.name call.args machine,
      inner.Signless) :
    ∀ completion ∈ completionsOf builtins (evaluate builtins frames) (completions builtins frames)
      around call machine, completion.Reproducible builtins machine.session.functions := by
  have key : call.key = ⟨call.name, call.args⟩ := CallKey.ofCall_of_ne plain
  cases cached : machine.session.cache.find? call.key with
  | some result =>
    simp only [completionsOf, cached, List.forall_mem_singleton]
    rw [key] at cached
    exact ⟨plain, faithful _ result cached⟩
  | none =>
    simp only [completionsOf, cached]
    rw [List.forall_mem_append]
    refine ⟨completionsWithin_reproducible each _ closed faithful cached signless, ?_⟩
    have after := apply_mirrored pure (mirroredWithin pure frames) closed faithful plain signless
    rw [apply_of_absent cached] at after
    rcases ran : applyAfresh builtins (evaluate builtins frames) call.name call.args machine with
      ⟨failure | result, middle⟩ <;> rw [ran] at after
    · intro completion member
      cases member
    · -- the memory is still faithful with the new result in it
      simp only [Evaluated.thenCompletions, List.forall_mem_singleton]
      rw [← after.undisturbed.functions]
      refine ⟨plain, after.faithful ⟨call.name, call.args⟩ result ?_⟩
      rw [← key]
      exact ResultCache.find?_insert_self _ _ result

/-- With pure builtins and closed clauses every call that is completed is reproducible. -/
theorem reproducibleWithin (pure : Builtin.AllPure builtins) (frames : Nat) :
    ReproducibleWithin builtins frames := by
  induction frames using Nat.strongRecOn with
  | ind frames ih =>
    intro around expr machine closed faithful signless
    match frames, expr with
    | 0, _ => exact List.forall_mem_nil _
    | _ + 1, .number _ _ => exact List.forall_mem_nil _
    | _ + 1, .var _ _ => exact List.forall_mem_nil _
    | frames + 1, .binary op left right _ =>
      have shallower := ih frames (by omega)
      have now : ∀ call ∈ left.calls builtins frames machine, call.Signless :=
        fun call begun => signless call (List.mem_append_left _ begun)
      rw [completions, List.forall_mem_append]
      refine ⟨shallower around left machine closed faithful now, ?_⟩
      apply (mirroredWithin pure frames left machine closed faithful now).reproducible_then closed
      intro x middle ran closed faithful
      exact shallower around right middle closed faithful fun call begun =>
        signless call (List.mem_append_right _ (by rw [ran]; exact begun))
    | _ + 1, .unary (.other _) _ _ => exact List.forall_mem_nil _
    | frames + 1, .unary .neg operand _ =>
      exact ih frames (by omega) around operand machine closed faithful signless
    | 1, .call _ _ _ => exact List.forall_mem_nil _
    | 2, .call _ _ _ => exact List.forall_mem_nil _
    | inner + 3, .call name args _ =>
      have bodies := ih inner (by omega)
      have mirrored := mirroredWithin pure inner
      have now : ∀ call ∈ callsAll (evaluate builtins inner) (calls builtins inner) args machine,
          call.Signless :=
        fun call begun => signless call (List.mem_append_left _ begun)
      rw [completions, List.forall_mem_append]
      refine ⟨completionsAll_reproducible mirrored bodies around args closed faithful now, ?_⟩
      apply (evaluateAll_mirrored mirrored args closed faithful now).reproducible_then closed
      intro values middle ran closed faithful
      have begun : ∀ call ∈ ⟨name, values⟩ ::
          callsWithin builtins (calls builtins inner) name values middle, call.Signless :=
        fun call member => signless call (List.mem_append_right _ (by rw [ran]; exact member))
      exact completionsOf_reproducible pure bodies around closed faithful
        (begun _ List.mem_cons_self) fun call member => begun call (List.mem_cons_of_mem _ member)
    | _ + 1, .foreign _ _ => exact List.forall_mem_nil _

end Expr

namespace Statement

private theorem slotsCompletions_reproducible (pure : Builtin.AllPure builtins) (frames : Nat)
    (around : List Call) (params : List Expr) {machine : Machine σ}
    (closed : machine.session.Closed) (faithful : machine.session.Faithful builtins)
    (signless : ∀ call ∈ slotCalls (Expr.evaluate builtins frames) (Expr.calls builtins frames)
      params machine, call.Signless) :
    ∀ completion ∈ slotsCompletions (Expr.evaluate builtins frames)
      (Expr.completions builtins frames around) params machine,
      completion.Reproducible builtins machine.session.functions := by
  induction params generalizing machine with
  | nil => exact List.forall_mem_nil _
  | cons param rest ih =>
    have first : ∀ completion ∈ slotCompletions (Expr.completions builtins frames around) param
        machine, completion.Reproducible builtins machine.session.functions := by
      cases param with
      | var name pos => exact List.forall_mem_nil _
      | _ =>
        exact Expr.reproducibleWithin pure frames around _ machine closed faithful
          fun call begun => signless call (List.mem_append_left _ begun)
    rw [slotsCompletions, List.forall_mem_append]
    refine ⟨first, ?_⟩
    apply (slot_mirrored (Expr.mirroredWithin pure frames) param closed faithful
      signless).reproducible_then closed
    intro slot middle ran closed faithful
    exact ih closed faithful fun call begun =>
      signless call (List.mem_append_right _ (by rw [ran]; exact begun))

theorem completions_reproducible (pure : Builtin.AllPure builtins) (frames : Nat)
    (statement : Option Statement) {machine : Machine σ} (closed : machine.session.Closed)
    (faithful : machine.session.Faithful builtins)
    (signless : ∀ call ∈ calls builtins frames statement machine, call.Signless) :
    ∀ completion ∈ completions builtins frames statement machine,
      completion.Reproducible builtins machine.session.functions := by
  have each := Expr.reproducibleWithin pure (allowance frames statement) []
  match statement with
  | none => exact List.forall_mem_nil _
  | some (.expression expr) => exact each expr machine closed faithful signless
  | some (.constant _ expr _) => exact each expr machine closed faithful signless
  | some (.clause _ params _ _) =>
    exact slotsCompletions_reproducible pure _ [] params closed faithful signless

/-- A statement leaves the functions as they are or adds one clause. -/
theorem perform_functionsExtend (builtins : Table (Builtin σ)) (frames : Nat)
    (statement : Option Statement) (machine : Machine σ) :
    FunctionsExtend machine.session.functions
      (perform builtins frames statement machine).2.session.functions := by
  have same := (evaluated_course builtins frames statement machine).undisturbed.functions
  have performed := perform_performed builtins frames statement machine
  rw [← same]
  generalize perform builtins frames statement machine = outcome at performed ⊢
  cases performed with
  | clause name params body pos pattern => exact Session.functionsExtend_appendClause _ name _
  | _ => exact .refl _

end Statement

namespace Interpreter

theorem serve_functionsExtend (interpreter : Interpreter σ) (request : Request) :
    FunctionsExtend interpreter.session.functions
      (interpreter.serve request).session.functions := by
  rw [← interpreter.prepared_functions request]
  apply serve_induction (fun machine =>
    FunctionsExtend (interpreter.prepared request).session.functions machine.session.functions)
  · exact .refl _
  · intro frames statement _
    exact Statement.perform_functionsExtend _ frames statement _

theorem serveAll_functionsExtend (interpreter : Interpreter σ) (requests : List Request) :
    FunctionsExtend interpreter.session.functions
      (interpreter.serveAll requests).session.functions := by
  induction requests generalizing interpreter with
  | nil => exact .refl _
  | cons request rest ih => exact (serve_functionsExtend interpreter request).trans (ih _)

/-- What a plain request completes is reproducible with the functions that it found. -/
theorem completions_reproducible {interpreter : Interpreter σ} {request : Request}
    (pure : Builtin.AllPure interpreter.builtins) (closed : interpreter.session.Closed)
    (faithful : interpreter.session.Faithful interpreter.builtins)
    (signless : ∀ call ∈ interpreter.calls request, call.Signless) :
    ∀ completion ∈ interpreter.completions request,
      completion.Reproducible interpreter.builtins interpreter.session.functions := by
  have counted := interpreter.prepared_functions request
  simp only [completions]
  cases performed : request.performed? interpreter.limit with
  | none => exact List.forall_mem_nil _
  | some asked =>
    simp only [calls, performed] at signless
    rw [← counted]
    exact Statement.completions_reproducible pure asked.1 asked.2 (closed.of_eq counted)
      (faithful.of_eq (interpreter.prepared_cache request) counted) signless

theorem history_reproducible {interpreter : Interpreter σ} {requests : List Request}
    (pure : Builtin.AllPure interpreter.builtins) (closed : interpreter.session.Closed)
    (faithful : interpreter.session.Faithful interpreter.builtins)
    (plain : interpreter.PlainRun requests) :
    ∀ completion ∈ interpreter.history requests,
      completion.Reproducible interpreter.builtins
        (interpreter.serveAll requests).session.functions := by
  induction requests generalizing interpreter with
  | nil => exact List.forall_mem_nil _
  | cons request rest ih =>
    obtain ⟨now, later⟩ := plain
    rw [history, List.forall_mem_append]
    constructor
    · intro completion member
      obtain ⟨signless, yields⟩ := completions_reproducible pure closed faithful now.signless
        completion member
      exact ⟨signless, yields.extend pure closed (serveAll_functionsExtend interpreter _)⟩
    · have same := serve_builtins interpreter request
      have sound := serve_faithful pure closed faithful now.signless
      rw [← same] at pure sound ⊢
      exact ih pure now.closed sound later

end Interpreter

end Calculator

import Calculator.Builtin.Standard
import Calculator.Proofs.Evaluation.Memoisation

namespace Calculator

variable {σ α β : Type} {builtins : Table (Builtin σ)}

namespace Mirrored

/-- What is answered in the end is the same if it depends on the value alone, whatever else is done
to the machine. -/
theorem answered {afresh : Nat → Machine σ → Evaluated σ α} {before : Machine σ}
    {outcome : Evaluated σ α} (mirrored : Mirrored builtins afresh before outcome)
    {next : α → Machine σ → Evaluated σ β} {answer : α → β}
    (answers : ∀ value machine, (next value machine).1 = .ok (answer value))
    (finished : (outcome.andThen next).1 ≠ .error (.because .stackLimit)) :
    Eventually fun frames => ∀ other, before.Alike other →
      ((afresh frames other).andThen next).1 = (outcome.andThen next).1 := by
  have within : outcome.1 ≠ .error (.because .stackLimit) := by
    rcases outcome with ⟨failure | value, after⟩
    · simpa using finished
    · simp
  apply (mirrored.reproduced within).mono
  intro frames reproduced other alike
  have same := reproduced other alike
  rcases outcome with ⟨failure | value, after⟩ <;>
    rcases ran : afresh frames other with ⟨failure' | value', after'⟩ <;> rw [ran] at same
  · cases same
    rfl
  · cases same
  · cases same
  · cases same
    exact (answers value after').trans (answers value after).symm

end Mirrored

namespace Statement

variable (builtins) in
/-- Do what a statement asks for, no result being remembered. -/
def performAfresh (frames : Nat) : Option Statement → Machine σ → Evaluated σ Answer :=
  performWith (Expr.evaluateAfresh builtins frames)

private theorem slot_session (frames : Nat) (param : Expr) (machine : Machine σ) :
    (slot (Expr.evaluateAfresh builtins frames) param machine).2.session = machine.session := by
  have kept : Guarantee.sessionKept.Kept machine
      (slot (Expr.evaluateAfresh builtins frames) param machine) :=
    Guarantee.slot_kept (Guarantee.evaluateAfresh_kept builtins frames) param machine
  exact kept.moves

private theorem slots_session (frames : Nat) (params : List Expr) (machine : Machine σ) :
    (slots (Expr.evaluateAfresh builtins frames) params machine).2.session = machine.session := by
  have kept : Guarantee.sessionKept.Kept machine
      (slots (Expr.evaluateAfresh builtins frames) params machine) :=
    Guarantee.slots_kept (Guarantee.evaluateAfresh_kept builtins frames) params machine
  exact kept.moves

/-- The calls of one parameter are the first ones of the parameters. -/
theorem slot_mirrored {frames : Nat} (each : Expr.MirroredWithin builtins frames) (param : Expr)
    {rest : List Expr} {machine : Machine σ} (closed : machine.session.Closed)
    (faithful : machine.session.Faithful builtins)
    (signless : ∀ call ∈ slotCalls (Expr.evaluate builtins frames) (Expr.calls builtins frames)
      (param :: rest) machine, call.Signless) :
    Mirrored builtins (fun more => slot (Expr.evaluateAfresh builtins more) param) machine
      (slot (Expr.evaluate builtins frames) param machine) := by
  cases param with
  | var name pos => exact .still faithful fun _ _ _ _ => rfl
  | _ =>
    apply (each _ machine closed faithful fun call member =>
      signless call (List.mem_append_left _ member)).andThen
      fun more other => Expr.evaluateAfresh_session builtins more _ other
    intro x after _ _ faithful
    exact .still faithful fun _ _ _ _ => rfl

private theorem slots_mirrored {frames : Nat} (each : Expr.MirroredWithin builtins frames)
    (params : List Expr) {machine : Machine σ} (closed : machine.session.Closed)
    (faithful : machine.session.Faithful builtins)
    (signless : ∀ call ∈ slotCalls (Expr.evaluate builtins frames) (Expr.calls builtins frames)
      params machine, call.Signless) :
    Mirrored builtins (fun more => slots (Expr.evaluateAfresh builtins more) params) machine
      (slots (Expr.evaluate builtins frames) params machine) := by
  induction params generalizing machine with
  | nil => exact .still faithful fun _ _ _ _ => rfl
  | cons param rest ih =>
    have first := slot_mirrored each param closed faithful signless
    rw [slots_cons]
    refine Mirrored.deeper ?_ 0 fun more other => slots_cons _ param rest other
    apply first.andThen fun more other => slot_session more param other
    intro value middle ran undisturbed faithful
    have others := ih (closed.of_eq undisturbed.functions) faithful fun call member =>
      signless call (List.mem_append_right _ (by rw [ran]; exact member))
    apply others.andThen fun more other => slots_session more rest other
    intro more after _ _ faithful
    exact .still faithful fun _ _ _ _ => rfl

section Perform

variable {frames : Nat} {statement : Option Statement} {machine : Machine σ}
  (pure : Builtin.AllPure builtins) (closed : machine.session.Closed)
  (faithful : machine.session.Faithful builtins)
  (signless : ∀ call ∈ calls builtins frames statement machine, call.Signless)

include pure closed faithful signless

/-- The answer to a statement does not depend on results being remembered. -/
theorem perform_reproduced
    (finished : (perform builtins frames statement machine).1 ≠ .error (.because .stackLimit)) :
    Eventually fun more => ∀ other, machine.Alike other →
      (performAfresh builtins more statement other).1 =
        (perform builtins frames statement machine).1 := by
  have each := Expr.mirroredWithin pure (allowance frames statement)
  rw [perform_eq_performWith] at finished ⊢
  match statement with
  | none => exact .always fun _ _ _ => rfl
  | some (.expression expr) =>
    exact (each expr machine closed faithful signless).answered (fun _ _ => rfl) finished
  | some (.constant name expr _) =>
    exact (each expr machine closed faithful signless).answered (fun _ _ => rfl) finished
  | some (.clause name params body _) =>
    exact (slots_mirrored each params closed faithful signless).answered (fun _ _ => rfl) finished

private theorem evaluated_mirrored :
    let value := Expr.evaluate builtins (allowance frames statement)
    let evaluated := evaluated value statement machine
    machine.Undisturbed evaluated ∧ evaluated.session.Faithful builtins := by
  have each := Expr.mirroredWithin pure (allowance frames statement)
  match statement with
  | none => exact ⟨.refl machine, faithful⟩
  | some (.expression expr) =>
    have mirrored := each expr machine closed faithful signless
    exact ⟨mirrored.undisturbed, mirrored.faithful⟩
  | some (.constant name expr _) =>
    have mirrored := each expr machine closed faithful signless
    exact ⟨mirrored.undisturbed, mirrored.faithful⟩
  | some (.clause name params body _) =>
    have mirrored := slots_mirrored each params closed faithful signless
    exact ⟨mirrored.undisturbed, mirrored.faithful⟩

/-- A statement leaves a faithful memory, even one that adds a clause and forgets no result. -/
theorem perform_faithful :
    (perform builtins frames statement machine).2.session.Faithful builtins := by
  obtain ⟨undisturbed, sound⟩ := evaluated_mirrored pure closed faithful signless
  have performed := perform_performed builtins frames statement machine
  generalize perform builtins frames statement machine = outcome at performed
  cases performed with
  | failed failure => exact sound
  | nothing => exact sound
  | computed expr result => exact sound
  | constant name expr pos result => exact sound.of_eq rfl rfl
  | clause name params body pos pattern =>
    -- the new clause need not be closed yet: results are older than it
    exact sound.appendClause pure (closed.of_eq undisturbed.functions) name ⟨pattern, body⟩

end Perform

end Statement

variable (builtins) in
private theorem Expr.evaluateAll_numbers (frames : Nat) (args : List Binary64)
    (machine : Machine σ) :
    evaluateAll (evaluateAfresh builtins (frames + 1)) (args.map fun x => .number x none) machine =
      (.ok args, machine) := by
  induction args with
  | nil => rfl
  | cons first rest ih =>
    have head : evaluateAfresh builtins (frames + 1) (.number first none) machine =
        (.ok first, machine) := rfl
    rw [List.map_cons, evaluateAll_cons, head, Evaluated.andThen_ok, ih, Evaluated.andThen_ok]

/-- In a faithful memory every result is the value of the call that it belongs to. -/
theorem Session.Faithful.call {session : Session} (faithful : session.Faithful builtins)
    {key : CallKey} {result : Binary64} (remembered : session.cache.find? key = some result) :
    Eventually fun frames => ∀ machine : Machine σ, machine.session.functions = session.functions →
      ((Expr.call key.name (key.args.map fun x => .number x none) none).evaluateAfresh builtins
        frames machine).1 = .ok result := by
  have positive : Eventually fun frames => 0 < frames := ⟨1, fun _ large => large⟩
  apply ((faithful key result remembered).and positive).deeper 3
  rintro frames ⟨computed, positive⟩ machine same
  obtain ⟨frames, rfl⟩ := Nat.exists_eq_add_one.mpr positive
  have literals := Expr.evaluateAll_numbers builtins frames key.args machine
  have spent : (Expr.call key.name (key.args.map fun x => .number x none) none).evaluateAfresh
      builtins (frames + 1 + 3) machine =
      Expr.applyAfresh builtins (Expr.evaluateAfresh builtins (frames + 1)) key.name key.args
        machine := by
    show (Expr.evaluateAll (Expr.evaluateAfresh builtins (frames + 1)) _ machine).andThen _ = _
    rw [literals]
    rfl
  rw [spent]
  exact computed machine same

namespace Interpreter

/-- The request makes no call with a negative zero, and adds a clause only if it is closed. -/
structure Plain (interpreter : Interpreter σ) (request : Request) : Prop where
  signless : ∀ call ∈ interpreter.calls request, call.Signless
  closed : (interpreter.serve request).session.Closed

/-- Every request of a run is plain when its turn comes. -/
def PlainRun : Interpreter σ → List Request → Prop
  | _, [] => True
  | interpreter, request :: rest =>
    interpreter.Plain request ∧ PlainRun (interpreter.serve request) rest

instance (interpreter : Interpreter σ) (request : Request) :
    Decidable (interpreter.Plain request) :=
  decidable_of_iff
    ((∀ call ∈ interpreter.calls request, call.Signless) ∧
      (interpreter.serve request).session.Closed)
    ⟨fun ⟨signless, closed⟩ => ⟨signless, closed⟩, fun plain => ⟨plain.signless, plain.closed⟩⟩

instance decidablePlainRun :
    (interpreter : Interpreter σ) → (requests : List Request) →
      Decidable (interpreter.PlainRun requests)
  | _, [] => inferInstanceAs (Decidable True)
  | interpreter, request :: rest =>
    have := decidablePlainRun (interpreter.serve request) rest
    inferInstanceAs (Decidable (interpreter.Plain request ∧ _))

theorem serve_faithful {interpreter : Interpreter σ} {request : Request}
    (pure : Builtin.AllPure interpreter.builtins) (closed : interpreter.session.Closed)
    (faithful : interpreter.session.Faithful interpreter.builtins)
    (signless : ∀ call ∈ interpreter.calls request, call.Signless) :
    (interpreter.serve request).session.Faithful interpreter.builtins := by
  have counted := interpreter.prepared_functions request
  have start : (interpreter.prepared request).session.Faithful interpreter.builtins :=
    faithful.of_eq (interpreter.prepared_cache request) counted
  apply serve_induction (fun machine => machine.session.Faithful interpreter.builtins)
    interpreter request start
  intro frames statement performed
  simp only [calls, performed] at signless
  exact Statement.perform_faithful pure (closed.of_eq counted) start signless

/-- A plain run keeps all clauses closed and the memory faithful. -/
private theorem serveAll_faithful {interpreter : Interpreter σ} {requests : List Request}
    (pure : Builtin.AllPure interpreter.builtins) (closed : interpreter.session.Closed)
    (faithful : interpreter.session.Faithful interpreter.builtins)
    (plain : interpreter.PlainRun requests) :
    (interpreter.serveAll requests).session.Closed ∧
      (interpreter.serveAll requests).session.Faithful interpreter.builtins := by
  induction requests generalizing interpreter with
  | nil => exact ⟨closed, faithful⟩
  | cons request rest ih =>
    obtain ⟨now, later⟩ := plain
    have same := serve_builtins interpreter request
    have sound := serve_faithful pure closed faithful now.signless
    rw [← same] at pure sound ⊢
    exact ih pure now.closed sound later

/-- Nothing tells the answers of an interpreter from answers that remember no result. After any
plain run that starts with a new interpreter, every remembered result is the value of its call under
the functions of that moment; and the answer to any further statement, or the mistake in it, is the
one that is found from the same scopes and functions without a memory and without a limit. -/
theorem memory_transparent (builtins : Table (Builtin σ)) (pure : Builtin.AllPure builtins)
    (constants : Table Binary64) (policy : CachePolicy) (limit : FrameLimit) (hidden : σ)
    (requests : List Request) (now : Interpreter σ)
    (reached : (create builtins constants policy limit hidden).serveAll requests = now)
    (plain : (create builtins constants policy limit hidden).PlainRun requests) :
    (∀ key result, now.session.cache.find? key = some result →
      Eventually fun frames => ∀ other : Machine σ,
        other.session.functions = now.session.functions →
        ((Expr.call key.name (key.args.map fun x => .number x none) none).evaluateAfresh builtins
          frames other).1 = .ok result) ∧
      ∀ frames statement,
        (∀ call ∈ Statement.calls builtins frames statement now.machine, call.Signless) →
        (now.perform frames statement).1 ≠ .error (.because .stackLimit) →
        Eventually fun more => ∀ other, now.machine.Alike other →
          (Statement.performAfresh builtins more statement other).1 =
            (now.perform frames statement).1 := by
  have start : (create builtins constants policy limit hidden).session.Closed := by
    intro name clause member
    cases member
  have nothing : (create builtins constants policy limit hidden).session.Faithful builtins := by
    intro key result cached
    cases cached
  have given := serveAll_builtins (create builtins constants policy limit hidden) requests
  obtain ⟨closed, faithful⟩ := serveAll_faithful pure start nothing plain
  rw [reached] at closed faithful given
  refine ⟨fun key result remembered => faithful.call remembered, ?_⟩
  intro frames statement signless finished
  have performed : (now.perform frames statement).1 =
      (Statement.perform builtins frames statement now.machine).1 := by
    rw [perform, given]
    rfl
  rw [performed] at finished ⊢
  exact Statement.perform_reproduced pure closed faithful signless finished

end Interpreter

theorem Builtin.selection_pure (name : String) (pick : Binary64 → Binary64 → Binary64) :
    (selection name pick : Builtin σ).Pure := by
  intro args hidden other
  match args with
  | [] => rfl
  | [_] => rfl
  | _ :: _ :: _ => rfl

/-- A factorial whose second clause comes after its first one was asked. -/
def factorialRun : List Request :=
  let call (arg : Expr) : Expr := .call "fact" [arg] none
  let literal (count : Int) : Expr := .number (.ofInt count) none
  let n : Expr := .var "n" none
  [.perform 30 (some (.clause "fact" [literal 0] (literal 1) none)),
    .perform 30 (some (.expression (call (literal 0)))),
    .perform 30 (some (.clause "fact" [n]
      (.binary .mul n (call (.binary .sub n (literal 1) none)) none) none)),
    .perform 30 (some (.expression (.call "max" [call (literal 3), literal 2] none)))]

def factorialSession : Interpreter Unit :=
  .create ⟨[("max", .selection "max" Standard.max)]⟩ {} .session .standard ()

/-- What was remembered before the second clause holds after it, and the next factorial is right. -/
theorem factorial_memory_transparent :
    factorialSession.PlainRun factorialRun ∧
      (Eventually fun frames => ∀ other : Machine Unit,
        other.session.functions = (factorialSession.serveAll factorialRun).session.functions →
        ((Expr.call "fact" [.number (.ofInt 0) none] none).evaluateAfresh factorialSession.builtins
          frames other).1 = .ok (.ofInt 1)) ∧
      Eventually fun frames => ∀ other,
        (factorialSession.serveAll factorialRun).machine.Alike other →
        (Statement.performAfresh factorialSession.builtins frames
          (some (.expression (.call "fact" [.number (.ofInt 4) none] none))) other).1 =
          .ok (.number (.ofInt 24)) := by
  have plain : factorialSession.PlainRun factorialRun := by decide +kernel
  have pure : Builtin.AllPure factorialSession.builtins := by
    intro name builtin given
    obtain ⟨before, after, entries, -⟩ := List.lookup_eq_some_iff.mp given
    have member : (name, builtin) ∈ factorialSession.builtins.entries := by simp [entries]
    cases List.mem_singleton.mp member
    exact Builtin.selection_pure "max" Standard.max
  obtain ⟨remembered, answered⟩ := Interpreter.memory_transparent factorialSession.builtins pure {}
    .session .standard () factorialRun (factorialSession.serveAll factorialRun) rfl plain
  refine ⟨plain, ?_, ?_⟩
  · exact remembered ⟨"fact", [.ofInt 0]⟩ (.ofInt 1) (by decide +kernel)
  · have now : ((factorialSession.serveAll factorialRun).perform 30
        (some (.expression (.call "fact" [.number (.ofInt 4) none] none)))).1 =
        .ok (.number (.ofInt 24)) := by decide +kernel
    rw [← now]
    apply answered
    · decide +kernel
    · simp [now]

end Calculator

import Mathlib.Data.List.Forall2
import Calculator.Proofs.Evaluation.Run
import Calculator.Proofs.Statement.Locality

/-! The limit of frames only cuts off. What is not cut off within a budget comes out in the same way
within every larger one, with the same machine left: reading looks at no more tokens, evaluation
asks and remembers the same results, and a statement has the same effect. -/

namespace Calculator

variable {σ α β : Type}

namespace Evaluated

/-- Evaluation ended because it ran out of frames. -/
def CutOff (outcome : Evaluated σ α) : Prop :=
  outcome.1 = .error (.because .stackLimit)

/-- The outcome of a larger budget is that of a smaller one, unless the smaller one was used up. -/
def Outlasts (larger smaller : Evaluated σ α) : Prop :=
  ¬smaller.CutOff → larger = smaller

namespace Outlasts

variable {larger smaller : Evaluated σ α}

theorem refl (outcome : Evaluated σ α) : outcome.Outlasts outcome :=
  fun _ => rfl

theorem of_cutOff {machine : Machine σ} :
    larger.Outlasts (.error (.because .stackLimit), machine) :=
  fun finished => absurd rfl finished

theorem andThen (first : larger.Outlasts smaller) {next following : α → Machine σ → Evaluated σ β}
    (second : ∀ value machine, (next value machine).Outlasts (following value machine)) :
    (larger.andThen next).Outlasts (smaller.andThen following) := by
  intro finished
  rcases smaller with ⟨failure | value, machine⟩
  · rw [first (by simpa [CutOff] using finished)]
    rfl
  · rw [first (by simp [CutOff])]
    exact second value machine finished

end Outlasts

end Evaluated

namespace Expr

section Steps

variable {many few : Expr → Machine σ → Evaluated σ Binary64}
  (each : ∀ expr machine, (many expr machine).Outlasts (few expr machine))

include each

theorem evaluateAll_outlasts (exprs : List Expr) (machine : Machine σ) :
    (evaluateAll many exprs machine).Outlasts (evaluateAll few exprs machine) := by
  induction exprs generalizing machine with
  | nil => exact .refl _
  | cons expr rest ih =>
    rw [evaluateAll_cons, evaluateAll_cons]
    apply (each expr machine).andThen
    intro first machine
    apply (ih machine).andThen
    intro more machine
    exact .refl _

variable (balanced : ∀ expr machine, Guarantee.undisturbed.Kept machine (few expr machine))

include balanced

/-- A scope is closed behind a body that was cut off too, so being cut off is never taken for
anything else. -/
private theorem within_outlasts (scope : Scope) (body : Expr) (machine : Machine σ) :
    (machine.within scope (many body)).Outlasts (machine.within scope (few body)) := by
  intro finished
  have same := each body (machine.enter scope)
  obtain ⟨left, closed, -⟩ := Guarantee.undisturbed.leaves (balanced body _).moves
  rcases ran : few body (machine.enter scope) with ⟨result, after⟩
  rw [ran] at same closed
  simp only [Machine.within, ran, closed] at finished ⊢
  rw [same finished]
  simp only [closed]

private theorem applyAfresh_outlasts (builtins : Table (Builtin σ)) (name : String)
    (args : List Binary64) (machine : Machine σ) :
    (applyAfresh builtins many name args machine).Outlasts
      (applyAfresh builtins few name args machine) := by
  cases given : builtins.get? name with
  | some builtin =>
    simp only [applyAfresh, given]
    exact .refl _
  | none =>
    cases defined : machine.session.functions.get? name with
    | none =>
      simp only [applyAfresh, given, defined]
      exact .refl _
    | some clauses =>
      rcases selected : Clause.select? clauses args with _ | ⟨scope, body⟩
      · simp only [applyAfresh, given, defined, selected]
        exact .refl _
      · simp only [applyAfresh, given, defined, selected]
        exact within_outlasts each balanced scope body machine

private theorem apply_outlasts (builtins : Table (Builtin σ)) (name : String)
    (args : List Binary64) (machine : Machine σ) :
    (apply builtins many name args machine).Outlasts (apply builtins few name args machine) := by
  cases cached : machine.session.cache.find? (.ofCall name args) with
  | some result =>
    rw [apply_of_present cached, apply_of_present cached]
    exact .refl _
  | none =>
    rw [apply_of_absent cached, apply_of_absent cached]
    apply (applyAfresh_outlasts each balanced builtins name args machine).andThen
    intro result machine
    exact .refl _

end Steps

/-- More frames change nothing but where evaluation is cut off. -/
theorem evaluate_outlasts (builtins : Table (Builtin σ)) {frames larger : Nat}
    (enough : frames ≤ larger) (expr : Expr) (machine : Machine σ) :
    (expr.evaluate builtins larger machine).Outlasts (expr.evaluate builtins frames machine) := by
  induction frames using Nat.strongRecOn generalizing larger expr machine with
  | ind frames ih =>
    cases frames with
    | zero => exact .of_cutOff
    | succ frames =>
      obtain ⟨larger, rfl⟩ : ∃ fewer, larger = fewer + 1 := ⟨larger - 1, by omega⟩
      cases expr with
      | number value pos => exact .refl _
      | var name pos => exact .refl _
      | binary op left right pos =>
        rw [evaluate_binary, evaluate_binary]
        apply (ih frames (by omega) (by omega) left machine).andThen
        intro x machine
        apply (ih frames (by omega) (by omega) right machine).andThen
        intro y machine
        exact .refl _
      | unary op operand pos =>
        cases op with
        | other symbol => exact .refl _
        | neg =>
          rw [evaluate_neg, evaluate_neg]
          apply (ih frames (by omega) (by omega) operand machine).andThen
          intro x machine
          exact .refl _
      | call name args pos =>
        -- a call needs two frames more, one for itself and one for an argument or a body
        rcases Nat.lt_or_ge frames 2 with few | some
        · obtain rfl | rfl : frames = 0 ∨ frames = 1 := by omega
          · exact .of_cutOff
          · exact .of_cutOff
        · obtain ⟨inner, rfl⟩ : ∃ inner, frames = inner + 2 := ⟨frames - 2, by omega⟩
          obtain ⟨larger, rfl⟩ : ∃ fewer, larger = fewer + 2 := ⟨larger - 2, by omega⟩
          have bodies := ih inner (by omega) (show inner ≤ larger by omega)
          rw [evaluate_call, evaluate_call]
          apply (evaluateAll_outlasts bodies args machine).andThen
          intro values machine
          exact apply_outlasts bodies (Guarantee.evaluate_undisturbed builtins inner) builtins name
            values machine
      | foreign kind pos => exact .refl _

end Expr

namespace Statement

section Steps

variable {many few : Expr → Machine σ → Evaluated σ Binary64}
  (each : ∀ expr machine, (many expr machine).Outlasts (few expr machine))

include each

private theorem slot_outlasts (param : Expr) (machine : Machine σ) :
    (slot many param machine).Outlasts (slot few param machine) := by
  cases param with
  | var name pos => exact .refl _
  | _ =>
    apply (each _ machine).andThen
    intro x machine
    exact .refl _

private theorem slots_outlasts (params : List Expr) (machine : Machine σ) :
    (slots many params machine).Outlasts (slots few params machine) := by
  induction params generalizing machine with
  | nil => exact .refl _
  | cons param rest ih =>
    rw [slots_cons, slots_cons]
    apply (slot_outlasts each param machine).andThen
    intro first machine
    apply (ih machine).andThen
    intro more machine
    exact .refl _

private theorem performWith_outlasts (statement : Option Statement) (machine : Machine σ) :
    (performWith many statement machine).Outlasts (performWith few statement machine) := by
  match statement with
  | none => exact .refl _
  | some (.expression expr) =>
    apply (each expr machine).andThen
    intro result machine
    exact .refl _
  | some (.constant name expr _) =>
    apply (each expr machine).andThen
    intro result machine
    exact .refl _
  | some (.clause name params body _) =>
    apply (slots_outlasts each params machine).andThen
    intro pattern machine
    exact .refl _

end Steps

/-- More frames change nothing about a statement that is not cut off, and nothing about its
effect. -/
theorem perform_outlasts (builtins : Table (Builtin σ)) {frames larger : Nat}
    (enough : frames ≤ larger) (statement : Option Statement) (machine : Machine σ) :
    (perform builtins larger statement machine).Outlasts
      (perform builtins frames statement machine) := by
  have left : allowance frames statement ≤ allowance larger statement := by
    rcases statement with _ | ⟨_ | _ | _⟩ <;> simp only [allowance] <;> omega
  rw [perform_eq_performWith, perform_eq_performWith]
  exact performWith_outlasts (Expr.evaluate_outlasts builtins left) statement machine

/-- More frames change nothing about a text that is read or found malformed. -/
theorem read_eq_of_le {frames larger : Nat} (enough : frames ≤ larger) {text : String}
    (finished : Statement.read frames text ≠ .error .stackLimit) :
    Statement.read larger text = Statement.read frames text := by
  obtain ⟨taken, rest, split, -, again⟩ :=
    Reader.whole_settled (Token.scan_genuine text) finished
  have same := again larger enough rest rfl
  rwa [← split] at same

end Statement

/-- A statement ended because it ran out of frames. -/
def StatementFailure.CutOff (outcome : Except StatementFailure α) : Prop :=
  ∃ index, outcome = .error (.rejected index .stackLimit)

namespace Interpreter

open StatementFailure (CutOff)

/-- A text that is run and not cut off within a budget is run alike within a larger one. -/
theorem run_eq_of_le (interpreter : Interpreter σ) {frames larger : Nat} (enough : frames ≤ larger)
    {text : String} (finished : ¬CutOff (interpreter.run frames text).1) :
    interpreter.run larger text = interpreter.run frames text := by
  have readable : Statement.read frames text ≠ .error .stackLimit := by
    intro limited
    apply finished
    simp only [run, limited]
    exact ⟨_, rfl⟩
  have read := Statement.read_eq_of_le enough readable
  rcases same : Statement.read frames text with (error | _) | statement
  · simp only [run, read, same]
  · exact absurd same readable
  · have performed := Statement.perform_outlasts interpreter.builtins enough statement
      interpreter.machine
    simp only [run, read, same, perform] at finished ⊢
    have uncut : ¬(Statement.perform interpreter.builtins frames statement
        interpreter.machine).CutOff := by
      intro limited
      rcases ran : Statement.perform interpreter.builtins frames statement
        interpreter.machine with ⟨result, after⟩
      rw [ran] at limited finished
      obtain rfl : result = .error (.because .stackLimit) := limited
      exact finished ⟨_, rfl⟩
    rw [performed uncut]

end Interpreter

namespace FrameLimit

/-- A larger limit makes no fewer frames available; two that are too large are too large alike. -/
theorem budget_le {first second : Int} (larger : first ≤ second)
    (alike : second ≤ greatest ∨ greatest < first) :
    (budget (.frames first) = .error .limitTooLarge ∧
        budget (.frames second) = .error .limitTooLarge) ∨
      ∃ frames more, budget (.frames first) = .ok frames ∧ budget (.frames second) = .ok more ∧
        frames ≤ more := by
  rcases alike with settable | beyond
  · right
    refine ⟨max least first.toNat, max least second.toNat, ?_, ?_, ?_⟩
    · rw [budget, if_neg (by omega)]
    · rw [budget, if_neg (by omega)]
    · omega
  · left
    constructor
    · rw [budget, if_pos beyond]
    · rw [budget, if_pos (by omega)]

end FrameLimit

namespace Interpreter

open StatementFailure (CutOff)

def withLimit (interpreter : Interpreter σ) (limit : FrameLimit) : Interpreter σ :=
  { interpreter with limit := limit }

/-- Texts that are fed one after the other, whatever their outcomes: all outcomes, and the
interpreter after the last one. -/
def feedAll (interpreter : Interpreter σ) :
    List String → List (Except StatementFailure Answer) × Interpreter σ
  | [] => ([], interpreter)
  | text :: rest =>
    let fed := interpreter.feed text
    let further := fed.2.feedAll rest
    (fed.1 :: further.1, further.2)

/-- Beyond the budget, the limit has no part in how a text is run. -/
private theorem run_withLimit (interpreter : Interpreter σ) (limit : FrameLimit) (frames : Nat)
    (text : String) :
    (interpreter.withLimit limit).run frames text =
      ((interpreter.run frames text).1, (interpreter.run frames text).2.withLimit limit) := by
  have builtins : (interpreter.withLimit limit).builtins = interpreter.builtins := rfl
  have machine : (interpreter.withLimit limit).machine = interpreter.machine := rfl
  simp only [run, perform, builtins, machine]
  rcases Statement.read frames text with (error | _) | statement
  · rfl
  · rfl
  · rcases ran : Statement.perform interpreter.builtins frames statement interpreter.machine with
      ⟨failure | answer, after⟩ <;> simp only [ran] <;> rfl

private theorem feed_withLimit (interpreter : Interpreter σ) (limit : FrameLimit) (text : String) :
    (interpreter.withLimit limit).feed text =
      match limit.budget with
      | .error defect => (.error (.internal defect), interpreter.counted.withLimit limit)
      | .ok frames =>
        ((interpreter.counted.run frames text).1,
          (interpreter.counted.run frames text).2.withLimit limit) := by
  have counted : (interpreter.withLimit limit).counted = interpreter.counted.withLimit limit := rfl
  have same : (interpreter.counted.withLimit limit).limit = limit := rfl
  rcases budget : limit.budget with defect | frames
  · simp only [feed, counted, same, budget]
  · simp only [feed, counted, same, budget, run_withLimit]

theorem feed_limit (interpreter : Interpreter σ) (text : String) :
    (interpreter.feed text).2.limit = interpreter.limit := by
  rcases interpreter.feed_cases text with ⟨failure, fed⟩ | ⟨frames, statement, -, -, fed⟩
  · rw [fed]
    rfl
  · rw [fed]

private theorem withLimit_of_limit {interpreter : Interpreter σ} {limit : FrameLimit}
    (same : interpreter.limit = limit) : interpreter.withLimit limit = interpreter := by
  subst same
  rfl

section Larger

variable {first second : Int} (larger : first ≤ second)
  (alike : second ≤ FrameLimit.greatest ∨ FrameLimit.greatest < first)

include larger alike

/-- A text that is not cut off is fed alike under a larger limit. -/
theorem feed_eq_of_limit_le (interpreter : Interpreter σ) (text : String)
    (finished : ¬CutOff ((interpreter.withLimit (.frames first)).feed text).1) :
    (interpreter.withLimit (.frames second)).feed text =
      (((interpreter.withLimit (.frames first)).feed text).1,
        ((interpreter.withLimit (.frames first)).feed text).2.withLimit (.frames second)) := by
  rw [feed_withLimit] at finished
  rw [feed_withLimit, feed_withLimit]
  rcases FrameLimit.budget_le larger alike with ⟨early, late⟩ | ⟨frames, more, early, late, enough⟩
  · simp only [early, late]
    rfl
  · simp only [early, late] at finished ⊢
    rw [run_eq_of_le _ enough finished]
    rfl

theorem feedAll_eq_of_limit_le (interpreter : Interpreter σ) (texts : List String)
    (finished : ∀ outcome ∈ ((interpreter.withLimit (.frames first)).feedAll texts).1,
      ¬CutOff outcome) :
    (interpreter.withLimit (.frames second)).feedAll texts =
      (((interpreter.withLimit (.frames first)).feedAll texts).1,
        ((interpreter.withLimit (.frames first)).feedAll texts).2.withLimit (.frames second)) := by
  induction texts generalizing interpreter with
  | nil => rfl
  | cons text rest ih =>
    obtain ⟨uncut, further⟩ := List.forall_mem_cons.mp finished
    have same := feed_eq_of_limit_le larger alike interpreter text uncut
    have kept : ((interpreter.withLimit (.frames first)).feed text).2.limit = .frames first :=
      feed_limit _ text
    have onwards := ih ((interpreter.withLimit (.frames first)).feed text).2
    rw [withLimit_of_limit kept] at onwards
    simp only [feedAll, same, onwards further]

end Larger

/-- A limit only cuts off, it never changes an answer. Of two limits that are both within what can
be set, or both beyond it, take the larger one: a text that is not cut off under the smaller has the
same outcome under the larger and leaves the same session and the same state of the builtins. So
does a run of texts none of which is cut off. -/
theorem limit_only_cuts_off (interpreter : Interpreter σ) (first second : Int)
    (larger : first ≤ second) (alike : second ≤ FrameLimit.greatest ∨ FrameLimit.greatest < first) :
    (∀ text, ¬CutOff ((interpreter.withLimit (.frames first)).feed text).1 →
      ((interpreter.withLimit (.frames second)).feed text).1 =
          ((interpreter.withLimit (.frames first)).feed text).1 ∧
        ((interpreter.withLimit (.frames second)).feed text).2.machine =
          ((interpreter.withLimit (.frames first)).feed text).2.machine) ∧
      ∀ texts, (∀ outcome ∈ ((interpreter.withLimit (.frames first)).feedAll texts).1,
          ¬CutOff outcome) →
        ((interpreter.withLimit (.frames second)).feedAll texts).1 =
            ((interpreter.withLimit (.frames first)).feedAll texts).1 ∧
          ((interpreter.withLimit (.frames second)).feedAll texts).2.machine =
            ((interpreter.withLimit (.frames first)).feedAll texts).2.machine := by
  constructor
  · intro text finished
    rw [feed_eq_of_limit_le larger alike interpreter text finished]
    exact ⟨rfl, rfl⟩
  · intro texts finished
    rw [feedAll_eq_of_limit_le larger alike interpreter texts finished]
    exact ⟨rfl, rfl⟩

end Interpreter

/-- The clauses of a recursive function, a call of it, and a text that is malformed. -/
def summingTexts : List String :=
  ["let s(0) = 0", "let s(n) = n + s(n - 1)", "s(3)", "s(2) +"]

def bareInterpreter : Interpreter Unit :=
  .create {} {} .session .standard ()

/-- A recursion that ends within a thousand frames is the same within thirty thousand. -/
theorem recursion_unchanged_by_larger_limit :
    ((bareInterpreter.withLimit (.frames 1000)).feedAll summingTexts).1 =
        [.ok (.note "<func s(0) = ...>"), .ok (.note "<func s(n) = ...>"), .ok (.number (.ofInt 6)),
          .error (.rejected 4 (.malformed ⟨⟨.eof, "", 6⟩, .operand⟩))] ∧
      ((bareInterpreter.withLimit (.frames 30000)).feedAll summingTexts).1 =
        ((bareInterpreter.withLimit (.frames 1000)).feedAll summingTexts).1 ∧
      ((bareInterpreter.withLimit (.frames 30000)).feedAll summingTexts).2.machine =
        ((bareInterpreter.withLimit (.frames 1000)).feedAll summingTexts).2.machine := by
  have outcomes : ((bareInterpreter.withLimit (.frames 1000)).feedAll summingTexts).1 =
      [.ok (.note "<func s(0) = ...>"), .ok (.note "<func s(n) = ...>"), .ok (.number (.ofInt 6)),
        .error (.rejected 4 (.malformed ⟨⟨.eof, "", 6⟩, .operand⟩))] := by decide +kernel
  refine ⟨outcomes, (Interpreter.limit_only_cuts_off bareInterpreter 1000 30000 (by decide)
    (.inl (by decide))).2 summingTexts ?_⟩
  rw [outcomes]
  simp [StatementFailure.CutOff]

/-- A limit beyond what can be set is no larger limit: nothing runs under it, though a number is its
own value under the usual one. -/
theorem limit_beyond_greatest_changes_answer :
    ¬∀ (interpreter : Interpreter Unit) (text : String) (first second : Int), first ≤ second →
      ¬StatementFailure.CutOff ((interpreter.withLimit (.frames first)).feed text).1 →
      ((interpreter.withLimit (.frames second)).feed text).1 =
        ((interpreter.withLimit (.frames first)).feed text).1 := by
  intro unchanged
  have usual : ((bareInterpreter.withLimit (.frames 10000)).feed "1").1 =
      .ok (.number (.ofInt 1)) := by decide +kernel
  have beyond : ((bareInterpreter.withLimit (.frames 2147483648)).feed "1").1 =
      .error (.internal .limitTooLarge) := by decide +kernel
  have same := unchanged bareInterpreter "1" 10000 2147483648 (by decide)
    (by rw [usual]; simp [StatementFailure.CutOff])
  rw [usual, beyond] at same
  cases same

end Calculator

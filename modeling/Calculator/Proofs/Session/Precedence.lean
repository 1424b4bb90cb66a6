import Calculator.Proofs.Evaluation.Dispatch
import Calculator.Proofs.Evaluation.Reproduction

namespace Calculator

variable {σ : Type}

namespace Clause

/-- The clause stands at the index, its pattern gives the arguments the names of the scope, and no
clause before it accepts them. -/
structure SelectedAt (clauses : List Clause) (args : List Binary64) (index : Nat)
    (clause : Clause) (scope : Scope) : Prop where
  listed : clauses[index]? = some clause
  bound : clause.pattern.bind? args = some scope
  least : ∀ earlier < index, ∀ other, clauses[earlier]? = some other →
    other.pattern.bind? args = none

variable {clauses more : List Clause} {args : List Binary64} {index : Nat} {clause : Clause}
  {scope : Scope}

theorem SelectedAt.cons {first : Clause} (rejected : first.pattern.bind? args = none)
    (selected : SelectedAt clauses args index clause scope) :
    SelectedAt (first :: clauses) args (index + 1) clause scope := by
  refine ⟨selected.listed, selected.bound, ?_⟩
  intro earlier before other listed
  cases earlier with
  | zero =>
    cases listed
    exact rejected
  | succ earlier => exact selected.least earlier (by omega) other listed

/-- Selecting finds the least index of a clause that accepts the arguments, and the scope that its
pattern gives. -/
theorem exists_selectedAt {body : Expr} (selected : select? clauses args = some (scope, body)) :
    ∃ index clause, SelectedAt clauses args index clause scope ∧ clause.body = body := by
  induction clauses with
  | nil => cases selected
  | cons first rest ih =>
    rw [select?, List.findSome?_cons] at selected
    cases bound : first.pattern.bind? args with
    | some names =>
      rw [bound] at selected
      cases selected
      exact ⟨0, first, ⟨rfl, bound, by omega⟩, rfl⟩
    | none =>
      rw [bound] at selected
      obtain ⟨index, clause, found, body⟩ := ih selected
      exact ⟨index + 1, clause, found.cons bound, body⟩

theorem SelectedAt.select? (selected : SelectedAt clauses args index clause scope) :
    Clause.select? clauses args = some (scope, clause.body) := by
  induction clauses generalizing index with
  | nil => cases selected.listed
  | cons first rest ih =>
    rw [Clause.select?, List.findSome?_cons]
    cases index with
    | zero =>
      cases selected.listed
      rw [selected.bound]
      rfl
    | succ index =>
      rw [selected.least 0 (by omega) first rfl]
      apply ih ⟨selected.listed, selected.bound, ?_⟩
      intro earlier before other listed
      exact selected.least (earlier + 1) (by omega) other listed

/-- At most one clause is selected, at one index and with one scope. -/
theorem SelectedAt.unique {other : Nat} {clause' : Clause} {scope' : Scope}
    (first : SelectedAt clauses args index clause scope)
    (second : SelectedAt clauses args other clause' scope') :
    index = other ∧ clause = clause' ∧ scope = scope' := by
  have same : index = other := by
    rcases Nat.lt_trichotomy index other with before | same | behind
    · cases (second.least index before clause first.listed).symm.trans first.bound
    · exact same
    · cases (first.least other behind clause' second.listed).symm.trans second.bound
  subst same
  cases first.listed.symm.trans second.listed
  cases first.bound.symm.trans second.bound
  exact ⟨rfl, rfl, rfl⟩

theorem SelectedAt.append (selected : SelectedAt clauses args index clause scope)
    (more : List Clause) : SelectedAt (clauses ++ more) args index clause scope := by
  have inside : index < clauses.length := (List.getElem?_eq_some_iff.mp selected.listed).1
  refine ⟨?_, selected.bound, ?_⟩
  · rw [List.getElem?_append_left inside]
    exact selected.listed
  · intro earlier before other listed
    rw [List.getElem?_append_left (by omega)] at listed
    exact selected.least earlier before other listed

/-- A clause that is selected once others were added is the one that was selected before, unless it
is one of the others and none was. -/
theorem SelectedAt.of_append (selected : SelectedAt (clauses ++ more) args index clause scope) :
    SelectedAt clauses args index clause scope ∨
      (clauses.length ≤ index ∧ Clause.select? clauses args = none) := by
  rcases earlier : Clause.select? clauses args with _ | ⟨scope', body⟩
  · by_cases inside : index < clauses.length
    · left
      have listed := selected.listed
      rw [List.getElem?_append_left inside] at listed
      refine ⟨listed, selected.bound, ?_⟩
      intro before less other present
      apply selected.least before less other
      rwa [List.getElem?_append_left (by omega)]
    · exact .inr ⟨by omega, rfl⟩
  · left
    obtain ⟨index', clause', found, -⟩ := exists_selectedAt earlier
    obtain ⟨rfl, rfl, rfl⟩ := selected.unique (found.append more)
    exact found

end Clause

theorem FunctionsExtend.clauses_isPrefix {older newer : Session}
    (extended : FunctionsExtend older.functions newer.functions) (name : String) :
    older.clauses name <+: newer.clauses name := by
  cases defined : older.functions.get? name with
  | none => simp [Session.clauses, defined]
  | some clauses =>
    obtain ⟨more, grown⟩ := extended name clauses defined
    simp [Session.clauses, defined, grown]

namespace Expr

section Calls

variable {builtins : Table (Builtin σ)} {machine after : Machine σ} {frames : Nat} {name : String}
  {exprs : List Expr} {values : List Binary64}
  (evaluated : evaluateAll (evaluate builtins frames) exprs machine = (.ok values, after))

include evaluated

private theorem undisturbed_of_evaluateAll : machine.Undisturbed after := by
  have moves := (Guarantee.evaluateAll_kept (Guarantee.evaluate_undisturbed builtins frames)
    exprs machine).moves
  rw [evaluated] at moves
  exact moves

variable (absent : after.session.cache.find? (.ofCall name values) = none)
  (given : builtins.get? name = none) (pos : Option Nat)

include absent given

/-- A call without an earlier result evaluates the body of the selected clause, in the scope that
the pattern gives on top of the scopes of the caller. That scope is closed again, and a value is
remembered. -/
theorem evaluate_absent_of_selectedAt {index : Nat} {clause : Clause} {scope : Scope}
    (selected : Clause.SelectedAt (machine.session.clauses name) values index clause scope) :
    (after.enter scope).session.environment = machine.session.environment.enter scope ∧
      (call name exprs pos).evaluate builtins (frames + 3) machine =
        let ended := clause.body.evaluate builtins frames (after.enter scope)
        Evaluated.andThen (ended.1, ended.2.withEnvironment machine.session.environment)
          fun value machine => (.ok value, machine.remember (.ofCall name values) value) := by
  have undisturbed := undisturbed_of_evaluateAll evaluated
  have defined : after.session.functions.get? name = some (machine.session.clauses name) := by
    rw [undisturbed.functions]
    cases defined : machine.session.functions.get? name with
    | none => simpa [Session.clauses, defined] using selected.listed
    | some clauses => simp [Session.clauses, defined]
  have left := (Guarantee.evaluate_undisturbed builtins frames clause.body
    (after.enter scope)).moves.leave?
  rw [undisturbed.environment] at left
  constructor
  · exact congrArg (·.enter scope) undisturbed.environment
  · rw [evaluate_call, evaluated, Evaluated.andThen_ok, apply_of_absent absent,
      applyAfresh_of_clause given defined selected.select?]
    simp only [Machine.within, left]

/-- A call without an earlier result fails for want of a clause exactly when the function has
clauses and none of them accepts the arguments. -/
theorem evaluate_absent_noMatch_iff :
    ((call name exprs pos).evaluate builtins (frames + 3) machine).1 =
        .error (.because (.noMatch name values)) ↔
      (machine.session.functions.get? name).isSome ∧
        ∀ clause ∈ machine.session.clauses name, clause.pattern.bind? values = none := by
  constructor
  · intro failed
    obtain ⟨-, clauses, defined, rejected⟩ :=
      (evaluate_honest builtins (frames + 3) _ machine).warranted _ failed
    refine ⟨by rw [defined]; rfl, ?_⟩
    intro clause member
    rw [Session.clauses, defined] at member
    rw [← Option.not_isSome_iff_eq_none, Pattern.isSome_bind?_iff]
    exact rejected clause member
  · rintro ⟨present, rejected⟩
    obtain ⟨clauses, defined⟩ := Option.isSome_iff_exists.mp present
    have nothing : Clause.select? clauses values = none := by
      apply List.findSome?_eq_none_iff.mpr
      intro clause member
      rw [rejected clause (by rwa [Session.clauses, defined]), Option.map_none]
    rw [← (undisturbed_of_evaluateAll evaluated).functions] at defined
    rw [evaluate_call, evaluated, Evaluated.andThen_ok, apply_of_absent absent,
      applyAfresh_of_noMatch given defined nothing]
    rfl

theorem evaluate_absent_undefinedFunction_iff :
    ((call name exprs pos).evaluate builtins (frames + 3) machine).1 =
        .error (.because (.undefinedFunction name)) ↔
      machine.session.functions.get? name = none := by
  constructor
  · intro failed
    exact ((evaluate_honest builtins (frames + 3) _ machine).warranted _ failed).2
  · intro defined
    rw [← (undisturbed_of_evaluateAll evaluated).functions] at defined
    rw [evaluate_call, evaluated, Evaluated.andThen_ok, apply_of_absent absent,
      applyAfresh_of_undefined given defined]
    rfl

/-- A call that no clause accepts is one of a function without a clause for it, or of no function
at all. -/
theorem evaluate_absent_of_select?_eq_none
    (nothing : Clause.select? (machine.session.clauses name) values = none) :
    ((call name exprs pos).evaluate builtins (frames + 3) machine).1 =
        .error (.because (.noMatch name values)) ∨
      ((call name exprs pos).evaluate builtins (frames + 3) machine).1 =
        .error (.because (.undefinedFunction name)) := by
  rw [evaluate_absent_noMatch_iff evaluated absent given,
    evaluate_absent_undefinedFunction_iff evaluated absent given]
  cases defined : machine.session.functions.get? name with
  | none => exact .inr rfl
  | some clauses =>
    refine .inl ⟨rfl, fun clause member => ?_⟩
    exact Option.map_eq_none_iff.mp (List.findSome?_eq_none_iff.mp nothing clause member)

end Calls

end Expr

/-- The first match is permanent. Whatever is asked of an interpreter, the clauses of a function
stay where they are, and others come behind them. A call without an earlier result, of a name that
is no builtin, evaluates the body of the first clause that accepts the arguments, in the scope that
its pattern gives on top of the scopes of the caller; it fails for want of a match exactly when the
function has no clause that accepts them, and as undefined exactly when there is no such function.
Hence a clause that is selected for some arguments is selected for them ever after, and a clause
that is selected later and was not before stands behind all clauses of that time, when every such
call failed in one of these two ways. -/
theorem Interpreter.first_match_permanent (interpreter : Interpreter σ) (requests : List Request) :
    let later := interpreter.serveAll requests
    (∀ name, interpreter.session.clauses name <+: later.session.clauses name) ∧
      (∀ (machine after : Machine σ) frames name exprs pos values,
        Expr.evaluateAll (Expr.evaluate interpreter.builtins frames) exprs machine =
            (.ok values, after) →
        after.session.cache.find? (.ofCall name values) = none →
        interpreter.builtins.get? name = none →
        let called := (Expr.call name exprs pos).evaluate interpreter.builtins (frames + 3) machine
        (∀ index clause scope,
          Clause.SelectedAt (machine.session.clauses name) values index clause scope →
          (after.enter scope).session.environment = machine.session.environment.enter scope ∧
            called =
              let ended := clause.body.evaluate interpreter.builtins frames (after.enter scope)
              Evaluated.andThen (ended.1, ended.2.withEnvironment machine.session.environment)
                fun value machine =>
                  (.ok value, machine.remember (.ofCall name values) value)) ∧
          (called.1 = .error (.because (.noMatch name values)) ↔
            (machine.session.functions.get? name).isSome ∧
              ∀ clause ∈ machine.session.clauses name, clause.pattern.bind? values = none) ∧
          (called.1 = .error (.because (.undefinedFunction name)) ↔
            machine.session.functions.get? name = none)) ∧
      (∀ name args index clause scope,
        Clause.SelectedAt (interpreter.session.clauses name) args index clause scope →
        Clause.SelectedAt (later.session.clauses name) args index clause scope) ∧
      ∀ name args index clause scope,
        Clause.SelectedAt (later.session.clauses name) args index clause scope →
        Clause.SelectedAt (interpreter.session.clauses name) args index clause scope ∨
          ((interpreter.session.clauses name).length ≤ index ∧
            ∀ frames exprs pos after,
              Expr.evaluateAll (Expr.evaluate interpreter.builtins frames) exprs
                interpreter.machine = (.ok args, after) →
              after.session.cache.find? (.ofCall name args) = none →
              interpreter.builtins.get? name = none →
              let called := (Expr.call name exprs pos).evaluate interpreter.builtins (frames + 3)
                interpreter.machine
              called.1 = .error (.because (.noMatch name args)) ∨
                called.1 = .error (.because (.undefinedFunction name))) := by
  intro later
  have grown : ∀ name, interpreter.session.clauses name <+: later.session.clauses name :=
    (serveAll_functionsExtend interpreter requests).clauses_isPrefix
  refine ⟨grown, ?_, ?_, ?_⟩
  · intro machine after frames name exprs pos values evaluated absent given
    refine ⟨fun index clause scope => ?_, ?_, ?_⟩
    · exact Expr.evaluate_absent_of_selectedAt evaluated absent given pos
    · exact Expr.evaluate_absent_noMatch_iff evaluated absent given pos
    · exact Expr.evaluate_absent_undefinedFunction_iff evaluated absent given pos
  · intro name args index clause scope selected
    obtain ⟨more, same⟩ := grown name
    rw [← same]
    exact selected.append more
  · intro name args index clause scope selected
    obtain ⟨more, same⟩ := grown name
    rw [← same] at selected
    rcases selected.of_append with earlier | ⟨behind, nothing⟩
    · exact .inl earlier
    · refine .inr ⟨behind, ?_⟩
      intro frames exprs pos after evaluated absent given
      exact Expr.evaluate_absent_of_select?_eq_none evaluated absent given pos nothing

/-- A function that is one at zero and the value of its argument elsewhere. -/
def piecewise : Interpreter Unit :=
  (Interpreter.create {} {} .redefine .standard ()).serveAll
    [.perform 9 (some (.clause "f" [.number (.zero false) none] (.number (.ofInt 1) none) none)),
      .perform 9 (some (.clause "f" [.var "n" none] (.var "n" none) none))]

/-- A clause for an argument that has one already, and a clause for no arguments. -/
def lateClauses : List Request :=
  [.perform 9 (some (.clause "f" [.number (.infinity false) none] (.number .nan none) none)),
    .perform 9 (some (.clause "f" [] (.number .nan none) none))]

/-- Infinity goes to the second clause before and after, so that its value is infinity; a call
without arguments goes to the fourth clause, and failed before. -/
theorem second_clause_keeps_infinity :
    Clause.SelectedAt ((piecewise.serveAll lateClauses).session.clauses "f") [.infinity false] 1
        ⟨[.bind "n"], .var "n" none⟩ ⟨[("n", .infinity false)]⟩ ∧
      ((Expr.call "f" [.number (.infinity false) none] none).evaluate piecewise.builtins (1 + 3)
        (piecewise.serveAll lateClauses).machine).1 = .ok (.infinity false) ∧
      Clause.SelectedAt ((piecewise.serveAll lateClauses).session.clauses "f") [] 3
        ⟨[], .number .nan none⟩ {} ∧
      (((Expr.call "f" [] none).evaluate piecewise.builtins (1 + 3) piecewise.machine).1 =
          .error (.because (.noMatch "f" [])) ∨
        ((Expr.call "f" [] none).evaluate piecewise.builtins (1 + 3) piecewise.machine).1 =
          .error (.because (.undefinedFunction "f"))) := by
  obtain ⟨-, calls, stays, news⟩ := piecewise.first_match_permanent lateClauses
  have second : Clause.SelectedAt (piecewise.session.clauses "f") [.infinity false] 1
      ⟨[.bind "n"], .var "n" none⟩ ⟨[("n", .infinity false)]⟩ := by
    refine ⟨rfl, rfl, ?_⟩
    intro earlier before other listed
    obtain rfl : earlier = 0 := by omega
    cases listed
    rfl
  have fourth : Clause.SelectedAt ((piecewise.serveAll lateClauses).session.clauses "f") [] 3
      ⟨[], .number .nan none⟩ {} := by
    refine ⟨rfl, rfl, ?_⟩
    intro earlier before other listed
    match earlier, before with
    | 0, _ | 1, _ | 2, _ =>
      cases listed
      rfl
  have later := stays "f" [.infinity false] 1 _ _ second
  refine ⟨later, ?_, fourth, ?_⟩
  · obtain ⟨selected, -⟩ := calls (piecewise.serveAll lateClauses).machine _ 1 "f"
      [.number (.infinity false) none] none [.infinity false] rfl rfl rfl
    rw [(selected 1 _ _ later).2]
    rfl
  · rcases news "f" [] 3 _ _ fourth with earlier | ⟨-, failed⟩
    · cases earlier.listed
    · exact failed 1 [] none _ rfl rfl rfl

end Calculator

import Calculator.Proofs.Evaluation.Limit
import Calculator.Proofs.Evaluation.Reproduction
import Calculator.Proofs.Session.Permanence

/-! When calls of one key agree. Under the session policy a completed call leaves its value for all
later ones, unless it was completed inside another call of the same key: that one had looked for the
key too early, and puts its own value in the place of the other when it is completed. Where no body
can see a scope of its caller the two values are the same all the same. -/

namespace Calculator

variable {σ : Type} {builtins : Table (Builtin σ)}

/-- The calls are of one function, and their arguments are equal one by one. -/
def Call.Equal (first second : Call) : Prop :=
  first.name = second.name ∧ List.Forall₂ (fun x y => x.equal y = true) first.args second.args

theorem Call.Equal.key_eq {first second : Call} (equal : first.Equal second) :
    first.key = second.key :=
  CallKey.ofCall_eq_iff.mpr ⟨equal.1, equal.2.imp fun _ _ same => .inl same⟩

private theorem forall₂_equal {args others : List Binary64}
    (pairs : List.Forall₂ Binary64.SameArgument args others)
    (numbers : ∀ x ∈ others, x.isNaN = false) :
    List.Forall₂ (fun x y => x.equal y = true) args others := by
  induction pairs with
  | nil => exact .nil
  | cons head _ ih =>
    obtain ⟨first, rest⟩ := List.forall_mem_cons.mp numbers
    refine .cons (head.resolve_right ?_) (ih rest)
    rintro ⟨-, undefined⟩
    rw [first] at undefined
    cases undefined

/-- Where no argument is nan, calls of one key are equal ones. -/
theorem Call.key_eq_iff {first second : Call} (numbers : ∀ x ∈ second.args, x.isNaN = false) :
    first.key = second.key ↔ first.Equal second := by
  constructor
  · intro same
    obtain ⟨named, pairs⟩ := CallKey.ofCall_eq_iff.mp same
    exact ⟨named, forall₂_equal pairs numbers⟩
  · exact fun equal => equal.key_eq

namespace Completion

/-- The one call was completed while the other was under way. -/
def Inside (inner outer : Completion) : Prop :=
  outer.call :: outer.around <:+ inner.around

/-- A call of the same key that was under way around the completed one is completed later, and its
value takes the place of the other. -/
def Overtaken (later : List Completion) (completion : Completion) : Prop :=
  ∃ outer ∈ later, outer.Stores completion.call.key ∧ completion.Inside outer

instance (inner outer : Completion) : Decidable (inner.Inside outer) := by
  unfold Inside
  infer_instance

instance (later : List Completion) (completion : Completion) :
    Decidable (completion.Overtaken later) := by
  unfold Overtaken
  infer_instance

theorem Overtaken.mono {later more : List Completion} {completion : Completion}
    (overtaken : completion.Overtaken later) (subset : later ⊆ more) :
    completion.Overtaken more := by
  obtain ⟨outer, member, stores, inside⟩ := overtaken
  exact ⟨outer, subset member, stores, inside⟩

/-- An element of two lists in a row is in the one or in the other. -/
theorem split_append {done more earlier later : List Completion} {completion : Completion}
    (split : done ++ more = earlier ++ completion :: later) :
    (∃ between, done = earlier ++ completion :: between ∧ later = between ++ more) ∨
      ∃ between, more = between ++ completion :: later ∧ earlier = done ++ between := by
  rcases List.append_eq_append_iff.mp split with ⟨between, first, second⟩ | ⟨rest, first, second⟩
  · exact .inr ⟨between, second, first⟩
  · cases rest with
    | nil => exact .inr ⟨[], second.symm, by simpa using first.symm⟩
    | cons _ between =>
      obtain ⟨rfl, behind⟩ := List.cons.inj second
      exact .inl ⟨between, first, behind⟩

theorem split_singleton {single completion : Completion} {earlier later : List Completion}
    (split : [single] = earlier ++ completion :: later) : completion = single ∧ earlier = [] := by
  cases earlier with
  | nil => exact ⟨(List.cons.inj split).1.symm, rfl⟩
  | cons _ rest => simp at split

end Completion

namespace Course

variable {around : List Call} {before after : Machine σ} {done : List Completion}
  {completion : Completion}

/-- What is completed on a course is completed inside the calls around it. -/
theorem around_of_mem (course : Course around before done after) (member : completion ∈ done) :
    around <:+ completion.around := by
  induction course with
  | rest => cases member
  | hidden hidden => cases member
  | trans _ _ early late =>
    rcases List.mem_append.mp member with member | member
    · exact early member
    · exact late member
  | enclosed _ ih => exact ih member
  | remembered _ =>
    cases List.mem_singleton.mp member
    exact List.suffix_refl _
  | failed _ _ ih => exact (List.suffix_cons _ _).trans (ih member)
  | kept _ _ ih =>
    rcases List.mem_append.mp member with member | member
    · exact (List.suffix_cons _ _).trans (ih member)
    · cases List.mem_singleton.mp member
      exact List.suffix_refl _

/-- A completed call that is not overtaken has its value in the memory at the end. -/
theorem find?_of_not_overtaken (course : Course around before done after)
    {earlier later : List Completion} (split : done = earlier ++ completion :: later)
    (last : ¬completion.Overtaken later) :
    after.session.cache.find? completion.call.key = some completion.value := by
  induction course generalizing earlier later with
  | rest => simp at split
  | hidden hidden => simp at split
  | trans _ second early late =>
    obtain ⟨between, here, rfl⟩ | ⟨between, here, -⟩ := Completion.split_append split
    · apply second.remembers
      exact early here fun overtaken => last (overtaken.mono (List.subset_append_left _ _))
    · exact late here last
  | enclosed _ ih => exact ih split last
  | remembered found =>
    obtain ⟨rfl, -⟩ := Completion.split_singleton split
    exact found
  | failed _ _ ih => exact ih split last
  | @kept around machine after call value done _ inside ih =>
    obtain ⟨between, here, rfl⟩ | ⟨between, here, -⟩ := Completion.split_append split
    · have found := ih here fun overtaken => last (overtaken.mono (List.subset_append_left _ _))
      -- a call of this key inside would be overtaken by the one that is remembered now
      have different : completion.call.key ≠ call.key := by
        intro same
        have member : completion ∈ done := by simp [here]
        exact last ⟨_, List.mem_append_right _ List.mem_cons_self, ⟨rfl, same.symm⟩,
          inside.around_of_mem member⟩
      rw [← found]
      exact ResultCache.find?_insert_of_ne _ different value
    · obtain ⟨rfl, -⟩ := Completion.split_singleton here
      exact ResultCache.find?_insert_self _ _ value

/-- A value takes the place of another only if that one was computed inside the call. -/
theorem exists_inside_of_replaced (course : Course around before done after)
    {earlier later : List Completion} (split : done = earlier ++ completion :: later)
    {session : Session} (kept : completion.kept = some session) {old : Binary64}
    (replaced : session.cache.find? completion.call.key = some old) :
    ∃ inner ∈ earlier, inner.Stores completion.call.key ∧ inner.value = old ∧
      inner.Inside completion := by
  induction course generalizing earlier later with
  | rest => simp at split
  | hidden hidden => simp at split
  | trans _ _ early late =>
    obtain ⟨between, here, -⟩ | ⟨between, here, rfl⟩ := Completion.split_append split
    · exact early here
    · obtain ⟨inner, present, found⟩ := late here
      exact ⟨inner, List.mem_append_right _ present, found⟩
  | enclosed _ ih => exact ih split
  | remembered _ =>
    obtain ⟨rfl, -⟩ := Completion.split_singleton split
    cases kept
  | failed _ _ ih => exact ih split
  | kept absent inside ih =>
    obtain ⟨between, here, -⟩ | ⟨between, here, rfl⟩ := Completion.split_append split
    · exact ih here
    · obtain ⟨rfl, rfl⟩ := Completion.split_singleton here
      cases kept
      -- the key was not there when the call began, so a call inside it put the value there
      rw [inside.find?_eq, absent, Option.or_none] at replaced
      obtain ⟨inner, newest, value⟩ := Option.map_eq_some_iff.mp replaced
      obtain ⟨present, stores⟩ := Completion.mem_of_newest? newest
      exact ⟨inner, List.mem_append_left _ present, stores, value, inside.around_of_mem present⟩

end Course

/-- Under the session policy a statement leaves the memory as its expressions did. -/
theorem Statement.perform_cache (builtins : Table (Builtin σ)) (frames : Nat)
    (statement : Option Statement) {machine : Machine σ}
    (policy : machine.session.cache.policy = .session) :
    (perform builtins frames statement machine).2.session.cache =
      (evaluated (Expr.evaluate builtins (allowance frames statement)) statement
        machine).session.cache := by
  have same := (evaluated_course builtins frames statement machine).undisturbed.policy.trans policy
  have performed := perform_performed builtins frames statement machine
  generalize perform builtins frames statement machine = outcome at performed ⊢
  cases performed with
  | clause name params body pos pattern =>
    simp only [Machine.appendClause, Session.appendClause, ResultCache.redefined, same]
  | _ => rfl

namespace Interpreter

/-- The expressions of a request are evaluated in one course, which leaves the memory that the
request leaves. -/
theorem serve_course {interpreter : Interpreter σ}
    (policy : interpreter.session.cache.policy = .session) (request : Request) :
    ∃ after, Course [] (interpreter.prepared request).machine (interpreter.completions request)
        after ∧
      (interpreter.serve request).session.cache = after.session.cache := by
  rw [serve_eq]
  simp only [completions]
  cases performed : request.performed? interpreter.limit with
  | none => exact ⟨_, .rest, rfl⟩
  | some asked =>
    have same : (interpreter.prepared request).machine.session.cache.policy = .session := by
      rw [prepared_cache]
      exact policy
    refine ⟨_, Statement.evaluated_course interpreter.builtins asked.1 asked.2 _, ?_⟩
    rw [← prepared_builtins interpreter request]
    exact Statement.perform_cache _ asked.1 asked.2 same

/-- After a run the memory has the value of every completed call that was not overtaken. -/
theorem find?_of_not_overtaken {interpreter : Interpreter σ}
    (policy : interpreter.session.cache.policy = .session) {requests : List Request}
    {earlier later : List Completion} {completion : Completion}
    (split : interpreter.history requests = earlier ++ completion :: later)
    (last : ¬completion.Overtaken later) :
    (interpreter.serveAll requests).session.cache.find? completion.call.key =
      some completion.value := by
  induction requests generalizing interpreter earlier with
  | nil => simp [history] at split
  | cons request rest ih =>
    have next := (serve_policy interpreter request).trans policy
    obtain ⟨between, here, rfl⟩ | ⟨between, here, -⟩ := Completion.split_append split
    · obtain ⟨after, course, cache⟩ := serve_course policy request
      have found := course.find?_of_not_overtaken here fun overtaken =>
        last (overtaken.mono (List.subset_append_left _ _))
      rw [← cache] at found
      exact serveAll_remembers next rest _ _ found
    · exact ih next here

theorem exists_inside_of_replaced {interpreter : Interpreter σ}
    (policy : interpreter.session.cache.policy = .session) {requests : List Request}
    {earlier later : List Completion} {completion : Completion}
    (split : interpreter.history requests = earlier ++ completion :: later)
    {session : Session} (kept : completion.kept = some session) {old : Binary64}
    (replaced : session.cache.find? completion.call.key = some old) :
    ∃ inner ∈ earlier, inner.Stores completion.call.key ∧ inner.value = old ∧
      inner.Inside completion := by
  induction requests generalizing interpreter earlier with
  | nil => simp [history] at split
  | cons request rest ih =>
    have next := (serve_policy interpreter request).trans policy
    obtain ⟨between, here, -⟩ | ⟨between, here, rfl⟩ := Completion.split_append split
    · obtain ⟨after, course, -⟩ := serve_course policy request
      exact course.exists_inside_of_replaced here kept replaced
    · obtain ⟨inner, present, found⟩ := ih next here
      exact ⟨inner, List.mem_append_right _ present, found⟩

/-- Equal calls agree under the session policy. Any two of them that are completed in a run have the
same value, unless one of the two is overtaken by what is completed later. A value takes the place
of another only at the end of a call inside which that other one was computed. And if builtins are
pure and the run is plain, then equal calls have the same value whatever they are inside of, and no
value ever gives way to a different one. -/
theorem equal_calls_agree (builtins : Table (Builtin σ)) (constants : Table Binary64)
    (limit : FrameLimit) (hidden : σ) (requests : List Request) (history : List Completion)
    (completed : (create builtins constants .session limit hidden).history requests = history) :
    (∀ earlier first later before second after, history = earlier ++ first :: later →
      history = before ++ second :: after → first.call.Equal second.call →
      ¬first.Overtaken later → ¬second.Overtaken after → first.value = second.value) ∧
    (∀ earlier outer later session old, history = earlier ++ outer :: later →
      outer.kept = some session → session.cache.find? outer.call.key = some old →
      ∃ inner ∈ earlier, inner.Stores outer.call.key ∧ inner.value = old ∧ inner.Inside outer) ∧
    (Builtin.AllPure builtins →
      (create builtins constants .session limit hidden).PlainRun requests →
      (∀ first ∈ history, ∀ second ∈ history, first.call.Equal second.call →
        first.value = second.value) ∧
      ∀ outer ∈ history, ∀ session old, outer.kept = some session →
        session.cache.find? outer.call.key = some old → old = outer.value) := by
  subst completed
  let start := create builtins constants .session limit hidden
  have policy : start.session.cache.policy = .session := rfl
  have closed : start.session.Closed := by
    intro name clause member
    cases member
  have faithful : start.session.Faithful builtins := by
    intro key result cached
    cases cached
  refine ⟨?_, ?_, fun pure plain => ⟨?_, ?_⟩⟩
  · intro earlier first later before second after here there equal last final
    have one := find?_of_not_overtaken policy here last
    have other := find?_of_not_overtaken policy there final
    rw [equal.key_eq, other] at one
    exact (Option.some.inj one).symm
  · intro earlier outer later session old here kept replaced
    exact exists_inside_of_replaced policy here kept replaced
  · intro first member second also equal
    have reproducible := history_reproducible pure closed faithful plain
    exact (reproducible first member).value_eq (reproducible second also) equal.key_eq
  · intro outer member session old kept replaced
    have reproducible := history_reproducible pure closed faithful plain
    obtain ⟨earlier, later, here⟩ := List.append_of_mem member
    obtain ⟨inner, present, stores, value, -⟩ :=
      exists_inside_of_replaced policy here kept replaced
    have listed := reproducible inner (here ▸ List.mem_append_left _ present)
    rw [← value]
    exact listed.value_eq (reproducible outer member) stores.2

end Interpreter

theorem bareInterpreter_pure : Builtin.AllPure bareInterpreter.builtins := by
  intro name builtin given
  cases given

/-- The call `f(1)` is computed twice: first inside itself, where `x` is the five of `g`, and then
where `x` is the constant. -/
def nestedRun : List Request :=
  ["const x = 0", "let f(y) = d(x)", "let d(0) = 0 * g(5)", "let d(z) = 7", "let g(x) = f(1)",
    "f(1) - g(5)"].map .feed

/-- Equal calls need not agree when one is completed inside the other: a body sees the scopes of its
callers, so that the inner call is not the outer one over again. -/
theorem nested_calls_disagree :
    ¬∀ (builtins : Table (Builtin Unit)) (constants : Table Binary64) (limit : FrameLimit)
        (requests : List Request), Builtin.AllPure builtins →
      ∀ first ∈ (Interpreter.create builtins constants .session limit ()).history requests,
      ∀ second ∈ (Interpreter.create builtins constants .session limit ()).history requests,
        first.call.Equal second.call → first.value = second.value := by
  intro agree
  have completed : (bareInterpreter.history nestedRun).map (fun done => (done.call, done.value)) =
      [(⟨"d", [.ofInt 5]⟩, .ofInt 7), (⟨"f", [.ofInt 1]⟩, .ofInt 7), (⟨"g", [.ofInt 5]⟩, .ofInt 7),
        (⟨"d", [.ofInt 0]⟩, .ofInt 0), (⟨"f", [.ofInt 1]⟩, .ofInt 0),
        (⟨"g", [.ofInt 5]⟩, .ofInt 7)] := by
    decide +kernel
  have listed : ∀ value ∈ [Binary64.ofInt 7, .ofInt 0], ∃ done ∈ bareInterpreter.history nestedRun,
      (done.call, done.value) = (⟨"f", [.ofInt 1]⟩, value) := by
    intro value member
    apply List.mem_map.mp
    rw [completed]
    revert value
    decide +kernel
  obtain ⟨inner, first, called⟩ := listed (.ofInt 7) (by simp)
  obtain ⟨outer, second, again⟩ := listed (.ofInt 0) (by simp)
  rw [Prod.mk.injEq] at called again
  have equal : inner.call.Equal outer.call := by
    rw [called.1, again.1]
    exact ⟨rfl, .cons (by decide +kernel) .nil⟩
  have same := agree {} {} .standard nestedRun bareInterpreter_pure inner first outer second equal
  rw [called.2, again.2] at same
  exact absurd same (by decide +kernel)

/-- A function is asked before and after it gets a clause that would answer differently. -/
def repeatedRun : List Request :=
  ["let f(x) = x * 2", "f(3)", "let f(3) = 1", "f(3) + f(3)"].map .feed

/-- In the nested run both calls of `g` agree, and the value that `f(1)` gave way to was computed
inside it; in the plain run all equal calls agree. -/
theorem repeated_calls_agree :
    (∀ first ∈ bareInterpreter.history nestedRun, ∀ second ∈ bareInterpreter.history nestedRun,
      first.call = ⟨"g", [.ofInt 5]⟩ → second.call = ⟨"g", [.ofInt 5]⟩ →
        first.value = second.value) ∧
    (∃ outer ∈ bareInterpreter.history nestedRun, outer.value = .ofInt 0 ∧
      ∃ inner ∈ bareInterpreter.history nestedRun, inner.value = .ofInt 7 ∧ inner.Inside outer) ∧
    bareInterpreter.PlainRun repeatedRun ∧
    ∀ first ∈ bareInterpreter.history repeatedRun, ∀ second ∈ bareInterpreter.history repeatedRun,
      first.call.Equal second.call → first.value = second.value := by
  obtain ⟨agree, replaced, -⟩ := Interpreter.equal_calls_agree {} {} .standard () nestedRun
    (bareInterpreter.history nestedRun) rfl
  obtain ⟨-, -, plainly⟩ := Interpreter.equal_calls_agree {} {} .standard () repeatedRun
    (bareInterpreter.history repeatedRun) rfl
  have last : ∀ done ∈ bareInterpreter.history nestedRun, done.call = ⟨"g", [.ofInt 5]⟩ →
      ¬done.Overtaken (bareInterpreter.history nestedRun) := by
    decide +kernel
  have plain : bareInterpreter.PlainRun repeatedRun := by decide +kernel
  refine ⟨?_, ?_, plain, (plainly bareInterpreter_pure plain).1⟩
  · intro first member second also called again
    have equal : first.call.Equal second.call := by
      rw [called, again]
      exact ⟨rfl, .cons (by decide +kernel) .nil⟩
    obtain ⟨earlier, later, here⟩ := List.append_of_mem member
    obtain ⟨before, after, there⟩ := List.append_of_mem also
    apply agree earlier first later before second after here there equal
    · intro overtaken
      exact last first member called (overtaken.mono fun done later => by simp [here, later])
    · intro overtaken
      exact last second also again (overtaken.mono fun done later => by simp [there, later])
  · have found : (bareInterpreter.history nestedRun).any (fun done =>
        decide (done.value = .ofInt 0) &&
          done.kept.any (·.cache.find? done.call.key = some (.ofInt 7))) = true := by
      decide +kernel
    simp only [List.any_eq_true, Bool.and_eq_true, Option.any_eq_true, decide_eq_true_eq] at found
    obtain ⟨outer, member, result, session, kept, found⟩ := found
    obtain ⟨earlier, later, here⟩ := List.append_of_mem member
    obtain ⟨inner, present, -, value, inside⟩ :=
      replaced earlier outer later session _ here kept found
    exact ⟨outer, member, result, inner, here ▸ List.mem_append_left _ present, value, inside⟩

end Calculator

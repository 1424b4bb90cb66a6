import Calculator.Proofs.Session.Acceptance

/-! The scope that a pattern makes of arguments. Slots are matched one after the other, and the
first literal that is not met gives up what has been named so far; so a scope is there only when
every slot accepts its argument. It has exactly the names of the pattern, each with the argument at
the last place of the name. -/

namespace Calculator

namespace Table

variable {α : Type}

private theorem map_setEntry (name : String) (value : α) (entries : List (String × α)) :
    (setEntry name value entries).map (·.1) =
      if name ∈ entries.map (·.1) then entries.map (·.1) else entries.map (·.1) ++ [name] := by
  induction entries with
  | nil => rfl
  | cons entry rest ih =>
    obtain ⟨other, old⟩ := entry
    by_cases same : name = other
    · simp [setEntry, same]
    · rw [setEntry, if_neg same, List.map_cons, ih]
      split_ifs <;> simp_all

/-- Setting a name keeps the names that are there and puts a new one behind them. -/
theorem names_set (table : Table α) (name : String) (value : α) :
    (table.set name value).names =
      if name ∈ table.names then table.names else table.names ++ [name] :=
  map_setEntry name value table.entries

theorem nodup_names_set {table : Table α} (distinct : table.names.Nodup) (name : String)
    (value : α) : (table.set name value).names.Nodup := by
  rw [names_set]
  split_ifs with present
  · exact distinct
  · refine List.nodup_append.mpr ⟨distinct, by simp, ?_⟩
    rintro other member last added rfl
    exact present (List.mem_singleton.mp added ▸ member)

end Table

namespace Slot

/-- The scope after the slot has taken its argument. -/
def record (slot : Slot) (x : Binary64) (scope : Scope) : Scope :=
  match slot with
  | .bind name => scope.set name x
  | .literal _ => scope

theorem nodup_names_record {scope : Scope} (distinct : scope.names.Nodup) (slot : Slot)
    (x : Binary64) : (slot.record x scope).names.Nodup := by
  cases slot with
  | bind name => exact Table.nodup_names_set distinct name x
  | literal value => exact distinct

theorem mem_names_record {slot : Slot} {x : Binary64} {scope : Scope} {name : String} :
    name ∈ (slot.record x scope).names ↔ name ∈ scope.names ∨ slot = .bind name := by
  cases slot with
  | bind other => simp [record, Table.mem_names_set, eq_comm]
  | literal value => simp [record]

theorem get?_record_self (name : String) (x : Binary64) (scope : Scope) :
    ((bind name).record x scope).get? name = some x :=
  Table.get?_set_self scope name x

theorem get?_record_of_ne {slot : Slot} {name : String} (other : slot ≠ .bind name) (x : Binary64)
    (scope : Scope) : (slot.record x scope).get? name = scope.get? name := by
  cases slot with
  | bind first => exact Table.get?_set_of_ne scope (by simpa [eq_comm] using other) x
  | literal value => rfl

theorem accepts_congr {slot : Slot} {x y : Binary64} (equal : x.equal y = true) :
    slot.Accepts y ↔ slot.Accepts x := by
  rw [← accepts_dropZeroSign, ← Binary64.dropZeroSign_eq_iff.mpr (.inl equal),
    accepts_dropZeroSign]

end Slot

namespace Pattern

/-- One step of matching: the slot accepts its argument and records it. -/
theorem bindInto_cons_eq_some_iff {scope bound : Scope} {slot : Slot} {slots : Pattern}
    {x : Binary64} {rest : List Binary64} :
    bindInto scope (slot :: slots) (x :: rest) = some bound ↔
      slot.Accepts x ∧ bindInto (slot.record x scope) slots rest = some bound := by
  cases slot with
  | bind name => simp [bindInto, Slot.Accepts, Slot.record]
  | literal value => simp [bindInto, Slot.Accepts, Slot.record]

/-- Matching as a relation, a step at a time: from a scope to the one that a pattern makes of
arguments. -/
inductive Binds : Scope → Pattern → List Binary64 → Scope → Prop where
  | nil (scope : Scope) : Binds scope [] [] scope
  | cons {scope bound : Scope} {slot : Slot} {slots : Pattern} {x : Binary64}
      {rest : List Binary64} : slot.Accepts x → Binds (slot.record x scope) slots rest bound →
        Binds scope (slot :: slots) (x :: rest) bound

theorem binds_iff {pattern : Pattern} {args : List Binary64} {scope bound : Scope} :
    Binds scope pattern args bound ↔ bindInto scope pattern args = some bound := by
  constructor
  · intro binds
    induction binds with
    | nil scope => rfl
    | cons accepts _ ih => exact bindInto_cons_eq_some_iff.mpr ⟨accepts, ih⟩
  · intro accepted
    induction pattern generalizing args scope with
    | nil =>
      cases args with
      | nil =>
        cases accepted
        exact .nil bound
      | cons x rest => cases accepted
    | cons slot slots ih =>
      cases args with
      | nil => cases slot <;> cases accepted
      | cons x rest =>
        obtain ⟨accepts, further⟩ := bindInto_cons_eq_some_iff.mp accepted
        exact .cons accepts (ih further)

/-- The argument stands at the last place that the pattern gives the name. -/
def LastNamed (pattern : Pattern) (args : List Binary64) (name : String) (x : Binary64) : Prop :=
  ∃ i : Nat, pattern[i]? = some (Slot.bind name) ∧ args[i]? = some x ∧
    ∀ j > i, pattern[j]? ≠ some (Slot.bind name)

theorem not_lastNamed_nil {name : String} {x : Binary64} : ¬LastNamed [] [] name x := by
  rintro ⟨i, named, -⟩
  simp at named

theorem lastNamed_cons {slot : Slot} {slots : Pattern} {first x : Binary64}
    {rest : List Binary64} {name : String} :
    LastNamed (slot :: slots) (first :: rest) name x ↔
      LastNamed slots rest name x ∨ slot = .bind name ∧ .bind name ∉ slots ∧ first = x := by
  constructor
  · rintro ⟨i, named, given, last⟩
    cases i with
    | zero =>
      refine .inr ⟨by simpa using named, fun member => ?_, by simpa using given⟩
      obtain ⟨j, later⟩ := List.mem_iff_getElem?.mp member
      exact last (j + 1) (by omega) (by simpa using later)
    | succ i =>
      refine .inl ⟨i, by simpa using named, by simpa using given, fun j after => ?_⟩
      simpa using last (j + 1) (by omega)
  · rintro (⟨i, named, given, last⟩ | ⟨named, absent, given⟩)
    · refine ⟨i + 1, by simpa using named, by simpa using given, fun j after => ?_⟩
      obtain ⟨j, rfl⟩ := Nat.exists_eq_add_one_of_ne_zero (by omega : j ≠ 0)
      simpa using last j (by omega)
    · refine ⟨0, by simpa using named, by simpa using given, fun j after later => ?_⟩
      obtain ⟨j, rfl⟩ := Nat.exists_eq_add_one_of_ne_zero (by omega : j ≠ 0)
      exact absent (List.mem_iff_getElem?.mpr ⟨j, by simpa using later⟩)

namespace Binds

variable {pattern : Pattern} {args : List Binary64} {scope bound : Scope}

theorem nodup_names (binds : Binds scope pattern args bound) (distinct : scope.names.Nodup) :
    bound.names.Nodup := by
  induction binds with
  | nil scope => exact distinct
  | cons _ _ ih => exact ih (Slot.nodup_names_record distinct _ _)

theorem mem_names_iff (binds : Binds scope pattern args bound) {name : String} :
    name ∈ bound.names ↔ name ∈ scope.names ∨ .bind name ∈ pattern := by
  induction binds with
  | nil scope => simp
  | cons _ _ ih => rw [ih, Slot.mem_names_record, List.mem_cons, or_assoc, eq_comm]

/-- A name means its last argument; a name that the pattern does not have keeps its meaning. -/
theorem get?_eq_some_iff (binds : Binds scope pattern args bound) {name : String} {x : Binary64} :
    bound.get? name = some x ↔
      pattern.LastNamed args name x ∨ .bind name ∉ pattern ∧ scope.get? name = some x := by
  induction binds with
  | nil scope => simp [not_lastNamed_nil]
  | @cons scope bound slot slots first rest _ _ ih =>
    rw [ih, lastNamed_cons, List.mem_cons, not_or]
    by_cases named : slot = .bind name
    · subst named
      rw [Slot.get?_record_self]
      simp
    · rw [Slot.get?_record_of_ne named]
      simp [named, Ne.symm named]

end Binds

theorem accepts_iff_getElem? {pattern : Pattern} {args : List Binary64} :
    pattern.Accepts args ↔ pattern.length = args.length ∧
      ∀ (i : Nat) literal x, pattern[i]? = some (Slot.literal literal) → args[i]? = some x →
        literal.equal x = true := by
  rw [Accepts, List.forall₂_iff_get]
  refine and_congr_right fun _ => ⟨fun each i literal x asked given => ?_, fun each i h k => ?_⟩
  · obtain ⟨inside, slot⟩ := List.getElem?_eq_some_iff.mp asked
    obtain ⟨within, argument⟩ := List.getElem?_eq_some_iff.mp given
    have accepted := each i inside within
    simpa [slot, argument, Slot.Accepts] using accepted
  · cases slot : pattern.get ⟨i, h⟩ with
    | bind name => trivial
    | literal literal =>
      exact each i literal _ (List.getElem?_eq_some_iff.mpr ⟨h, slot⟩)
        (List.getElem?_eq_some_iff.mpr ⟨k, rfl⟩)

theorem not_accepts_of_nan {pattern : Pattern} (member : .literal .nan ∈ pattern)
    (args : List Binary64) : ¬pattern.Accepts args := by
  intro accepts
  induction accepts with
  | nil => cases member
  | cons accepted _ ih =>
    rcases List.mem_cons.mp member with same | member
    · subst same
      cases accepted
    · exact ih member

theorem accepts_congr {pattern : Pattern} {args others : List Binary64}
    (equal : List.Forall₂ (fun x y => x.equal y = true) args others) :
    pattern.Accepts others ↔ pattern.Accepts args := by
  unfold Accepts
  induction equal generalizing pattern with
  | nil => rfl
  | cons first _ ih =>
    cases pattern with
    | nil => simp
    | cons slot slots => rw [List.forall₂_cons, List.forall₂_cons, Slot.accepts_congr first, ih]

/-- A pattern gives a scope exactly if it has a slot for each argument and every literal slot equals
the argument in its place, as numbers: so nan as a literal is never met, and either zero meets the
other. The scope has the names of the pattern, each once, and a name means the argument at its last
place. Equal arguments are accepted alike. -/
theorem bind?_accepts_and_names_last (pattern : Pattern) (args : List Binary64) :
    ((∃ scope, pattern.bind? args = some scope) ↔ pattern.length = args.length ∧
      ∀ (i : Nat) literal x, pattern[i]? = some (Slot.literal literal) → args[i]? = some x →
        literal.equal x = true) ∧
      (.literal .nan ∈ pattern → pattern.bind? args = none) ∧
      (∀ negative other, bind? (.literal (.zero negative) :: pattern) (.zero other :: args) =
        pattern.bind? args) ∧
      (∀ scope, pattern.bind? args = some scope →
        scope.names.Nodup ∧ (∀ name, name ∈ scope.names ↔ .bind name ∈ pattern) ∧
          ∀ name x, scope.get? name = some x ↔ pattern.LastNamed args name x) ∧
      ∀ others, List.Forall₂ (fun x y => x.equal y = true) args others →
        (pattern.bind? others).isSome = (pattern.bind? args).isSome := by
  refine ⟨?_, fun member => ?_, fun negative other => ?_, fun scope accepted => ?_,
    fun others equal => ?_⟩
  · rw [← Option.isSome_iff_exists, isSome_bind?_iff, accepts_iff_getElem?]
  · rw [← Option.not_isSome_iff_eq_none, isSome_bind?_iff]
    exact not_accepts_of_nan member args
  · have met : (Binary64.zero negative).equal (.zero other) = true := by
      cases negative <;> cases other <;> decide
    rw [bind?, bindInto, if_pos met, bind?]
  · have binds : Binds {} pattern args scope := binds_iff.mpr accepted
    refine ⟨binds.nodup_names List.nodup_nil, fun name => ?_, fun name x => ?_⟩
    · rw [binds.mem_names_iff]
      simp [Table.names]
    · rw [binds.get?_eq_some_iff]
      simp [Table.get?]
  · rw [Bool.eq_iff_iff, isSome_bind?_iff, isSome_bind?_iff, accepts_congr equal]

/-- A name on both sides of a literal zero, which either zero meets; nan does not meet itself. -/
theorem repeated_name_means_last :
    (∃ scope, bind? [.bind "x", .literal (.zero false), .bind "x"]
        [.ofInt 1, .zero true, .ofInt 2] = some scope ∧
      scope.names.Nodup ∧ (∀ name, name ∈ scope.names ↔ name = "x") ∧
        scope.get? "x" = some (.ofInt 2)) ∧
      (bind? [.bind "x", .literal (.zero false), .bind "x"]
        [.ofInt 1, .zero false, .ofInt 2]).isSome = true ∧
      bind? [.bind "x", .literal .nan] [.ofInt 1, .nan] = none := by
  obtain ⟨-, undefined, -⟩ :=
    bind?_accepts_and_names_last [.bind "x", .literal .nan] [.ofInt 1, .nan]
  obtain ⟨accepts, -, -, scopes, alike⟩ := bind?_accepts_and_names_last
    [.bind "x", .literal (.zero false), .bind "x"] [.ofInt 1, .zero true, .ofInt 2]
  obtain ⟨scope, accepted⟩ := accepts.mpr ⟨by simp, by
    rintro (_ | _ | _ | i) literal x asked given
    · cases asked
    · cases asked
      cases given
      decide
    · cases asked
    · cases asked⟩
  obtain ⟨distinct, names, values⟩ := scopes scope accepted
  refine ⟨⟨scope, accepted, distinct, fun name => by simp [names], ?_⟩, ?_, undefined (by simp)⟩
  · refine (values "x" (.ofInt 2)).mpr ⟨2, rfl, rfl, fun j after later => ?_⟩
    obtain ⟨inside, -⟩ := List.getElem?_eq_some_iff.mp later
    simp at inside
    omega
  · rw [alike [.ofInt 1, .zero false, .ofInt 2], accepted]
    · rfl
    · exact .cons (by decide +kernel) (.cons (by decide) (.cons (by decide +kernel) .nil))

end Pattern

end Calculator

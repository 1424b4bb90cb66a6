import Calculator.Session.Basic

namespace Calculator

namespace Table

variable {α : Type}

theorem isSome_get?_set {table : Table α} {name : String} (present : (table.get? name).isSome)
    (other : String) (value : α) : ((table.set other value).get? name).isSome := by
  by_cases same : name = other
  · subst same
    simp
  · rwa [get?_set_of_ne _ same]

theorem mem_names_iff {table : Table α} {name : String} :
    name ∈ table.names ↔ table.get? name ≠ none := by
  rw [ne_eq, get?, List.lookup_eq_none_iff]
  simp [names]

theorem mem_names_set {table : Table α} {name other : String} {value : α} :
    other ∈ (table.set name value).names ↔ other ∈ table.names ∨ other = name := by
  rw [mem_names_iff, mem_names_iff]
  by_cases same : other = name
  · subst same
    simp
  · rw [get?_set_of_ne table same, or_iff_left same]

end Table

namespace Pattern

/-- Matching keeps the names that are there and adds those of the pattern. -/
theorem isSome_get?_bindInto {pattern : Pattern} {args : List Binary64} {scope bound : Scope}
    (accepted : bindInto scope pattern args = some bound) {name : String}
    (named : (scope.get? name).isSome ∨ Slot.bind name ∈ pattern) :
    (bound.get? name).isSome := by
  induction pattern generalizing args scope with
  | nil =>
    cases args with
    | nil =>
      simp only [bindInto, Option.some.injEq] at accepted
      subst accepted
      simpa using named
    | cons value values => simp [bindInto] at accepted
  | cons slot slots ih =>
    cases args with
    | nil => cases slot <;> simp [bindInto] at accepted
    | cons value values =>
      cases slot with
      | bind first =>
        apply ih accepted
        rcases named with present | member
        · exact .inl (Table.isSome_get?_set present first value)
        · rcases List.mem_cons.mp member with same | member
          · cases same
            left
            simp
          · exact .inr member
      | literal literal =>
        by_cases equal : literal.equal value = true
        · simp only [bindInto, equal, if_true] at accepted
          apply ih accepted
          simpa using named
        · simp [bindInto, equal] at accepted

theorem isSome_get?_bind? {pattern : Pattern} {args : List Binary64} {scope : Scope}
    (accepted : pattern.bind? args = some scope) {name : String}
    (member : Slot.bind name ∈ pattern) : (scope.get? name).isSome :=
  isSome_get?_bindInto accepted (.inr member)

end Pattern

mutual

/-- The names that stand for values in an expression. -/
def Expr.freeNames : Expr → List String
  | .number _ _ => []
  | .var name _ => [name]
  | .binary _ left right _ => left.freeNames ++ right.freeNames
  | .unary _ operand _ => operand.freeNames
  | .call _ args _ => Expr.freeNamesAll args
  | .foreign _ _ => []

/-- The names that stand for values in some of the expressions. -/
def Expr.freeNamesAll : List Expr → List String
  | [] => []
  | expr :: rest => expr.freeNames ++ Expr.freeNamesAll rest

end

namespace Clause

/-- Every name in the body is one that the pattern gives to an argument. -/
def Closed (clause : Clause) : Prop :=
  ∀ name ∈ clause.body.freeNames, Slot.bind name ∈ clause.pattern

instance (clause : Clause) : Decidable clause.Closed := by
  unfold Closed
  infer_instance

theorem select?_append (clauses more : List Clause) (args : List Binary64) :
    select? (clauses ++ more) args = (select? clauses args).or (select? more args) :=
  List.findSome?_append

theorem exists_of_select? {clauses : List Clause} {args : List Binary64} {scope : Scope}
    {body : Expr} (selected : select? clauses args = some (scope, body)) :
    ∃ clause ∈ clauses, clause.pattern.bind? args = some scope ∧ clause.body = body := by
  obtain ⟨clause, member, accepted⟩ := List.exists_of_findSome?_eq_some selected
  obtain ⟨bound, matched, same⟩ := Option.map_eq_some_iff.mp accepted
  cases same
  exact ⟨clause, member, matched, rfl⟩

end Clause

namespace Session

/-- All clauses of all functions are closed. -/
def Closed (session : Session) : Prop :=
  ∀ name, ∀ clause ∈ session.clauses name, clause.Closed

private theorem closed_iff {session : Session} :
    session.Closed ↔
      ∀ name ∈ session.functions.names, ∀ clause ∈ session.clauses name, clause.Closed := by
  constructor
  · exact fun closed name _ => closed name
  · intro closed name clause member
    apply closed name _ clause member
    -- a name without clauses has no clause that could fail to be closed
    cases defined : session.functions.get? name with
    | none => simp [Session.clauses, defined] at member
    | some clauses =>
      obtain ⟨before, after, entries, -⟩ := List.lookup_eq_some_iff.mp defined
      simp [Table.names, entries]

instance (session : Session) : Decidable session.Closed :=
  decidable_of_iff _ closed_iff.symm

theorem Closed.of_eq {session session' : Session} (closed : session.Closed)
    (functions : session'.functions = session.functions) : session'.Closed := by
  intro name clause member
  rw [clauses, functions] at member
  exact closed name clause member

/-- In a closed session the scope of a selected clause hides every other scope from its body. -/
theorem Closed.find?_enter {session : Session} (closed : session.Closed) {name : String}
    {clauses : List Clause} (defined : session.functions.get? name = some clauses)
    {args : List Binary64} {scope : Scope} {body : Expr}
    (selected : Clause.select? clauses args = some (scope, body)) {free : String}
    (member : free ∈ body.freeNames) (first second : Environment) :
    (first.enter scope).find? free = (second.enter scope).find? free := by
  obtain ⟨clause, present, accepted, same⟩ := Clause.exists_of_select? selected
  have listed : clause ∈ session.clauses name := by simpa [Session.clauses, defined] using present
  have named := closed name clause listed free (by rwa [same])
  have bound := Pattern.isSome_get?_bind? accepted named
  obtain ⟨value, found⟩ := Option.isSome_iff_exists.mp bound
  rw [Environment.find?_enter, Environment.find?_enter, found]
  rfl

end Session

end Calculator

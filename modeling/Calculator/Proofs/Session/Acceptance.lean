import Calculator.Proofs.Session.Key
import Calculator.Proofs.Session.Selection

namespace Calculator

namespace Slot

/-- The argument is what the slot asks for. -/
def Accepts (slot : Slot) (x : Binary64) : Prop :=
  match slot with
  | .bind _ => True
  | .literal value => value.equal x = true

theorem accepts_dropZeroSign {slot : Slot} {x : Binary64} :
    slot.Accepts x.dropZeroSign ↔ slot.Accepts x := by
  cases slot with
  | bind name => rfl
  | literal value =>
    simp only [Accepts, Binary64.equal, Binary64.isNaN_dropZeroSign,
      Binary64.dropZeroSign_dropZeroSign]

/-- The slots ask for the same: they give the same name, or equal numbers. -/
inductive Alike : Slot → Slot → Prop where
  | bind (name : String) : Alike (.bind name) (.bind name)
  | literal {x y : Binary64} (equal : x.equal y = true) : Alike (.literal x) (.literal y)

end Slot

namespace Pattern

/-- There is a slot for each argument, and each accepts its own. -/
def Accepts (pattern : Pattern) (args : List Binary64) : Prop :=
  List.Forall₂ Slot.Accepts pattern args

theorem accepts_map_dropZeroSign {pattern : Pattern} {args : List Binary64} :
    pattern.Accepts (args.map Binary64.dropZeroSign) ↔ pattern.Accepts args := by
  simp only [Accepts, List.forall₂_map_right_iff, Slot.accepts_dropZeroSign]

private theorem isSome_bindInto_iff (scope : Scope) (pattern : Pattern) (args : List Binary64) :
    (bindInto scope pattern args).isSome = true ↔ pattern.Accepts args := by
  unfold Accepts
  induction pattern generalizing scope args with
  | nil => cases args <;> simp [bindInto]
  | cons slot slots ih =>
    cases args with
    | nil => cases slot <;> simp [bindInto]
    | cons value values =>
      rw [List.forall₂_cons]
      cases slot with
      | bind name => simp [bindInto, ih, Slot.Accepts]
      | literal literal =>
        by_cases equal : literal.equal value = true <;> simp [bindInto, equal, ih, Slot.Accepts]

theorem isSome_bind?_iff (pattern : Pattern) (args : List Binary64) :
    (pattern.bind? args).isSome = true ↔ pattern.Accepts args :=
  isSome_bindInto_iff {} pattern args

private theorem bindInto_eq_of_alike {pattern other : Pattern}
    (alike : List.Forall₂ Slot.Alike pattern other) (scope : Scope) (args : List Binary64) :
    bindInto scope other args = bindInto scope pattern args := by
  induction alike generalizing scope args with
  | nil => rfl
  | cons slots _ ih =>
    cases args with
    | nil => cases slots <;> rfl
    | cons value values =>
      cases slots with
      | bind name => exact ih _ values
      | literal equal => simp only [bindInto, Binary64.equal_congr equal, ih]

/-- Patterns with slots that ask for the same accept the same arguments and name them alike. -/
theorem bind?_eq_of_alike {pattern other : Pattern}
    (alike : List.Forall₂ Slot.Alike pattern other) (args : List Binary64) :
    other.bind? args = pattern.bind? args :=
  bindInto_eq_of_alike alike {} args

end Pattern

namespace Clause

theorem exists_accepts_of_select? {clauses : List Clause} {args : List Binary64} {scope : Scope}
    {body : Expr} (selected : select? clauses args = some (scope, body)) :
    ∃ clause ∈ clauses, clause.pattern.Accepts args := by
  obtain ⟨clause, member, bound, -⟩ := exists_of_select? selected
  exact ⟨clause, member, (clause.pattern.isSome_bind?_iff args).mp (by rw [bound]; rfl)⟩

theorem select?_eq_none_iff {clauses : List Clause} {args : List Binary64} :
    select? clauses args = none ↔ ∀ clause ∈ clauses, ¬clause.pattern.Accepts args := by
  constructor
  · intro nothing clause member accepts
    have rejected := List.findSome?_eq_none_iff.mp nothing clause member
    rw [Option.map_eq_none_iff] at rejected
    rw [← Pattern.isSome_bind?_iff, rejected] at accepts
    cases accepts
  · intro rejected
    rcases selected : select? clauses args with _ | ⟨scope, body⟩
    · rfl
    · obtain ⟨clause, member, accepts⟩ := exists_accepts_of_select? selected
      exact absurd accepts (rejected clause member)

end Clause

end Calculator

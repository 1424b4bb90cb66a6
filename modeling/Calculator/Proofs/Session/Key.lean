import Mathlib.Data.List.Forall2
import Calculator.Session.ResultCache

namespace Calculator

namespace Binary64

/-- The two numbers are one and the same as an argument of a call. -/
def SameArgument (x y : Binary64) : Prop :=
  x.equal y = true ∨ x.isNaN = true ∧ y.isNaN = true

instance (x y : Binary64) : Decidable (x.SameArgument y) := by
  unfold SameArgument
  infer_instance

theorem isNaN_dropZeroSign (x : Binary64) : x.dropZeroSign.isNaN = x.isNaN := by
  unfold dropZeroSign
  split
  · rename_i zero
    cases x <;> simp_all [isZero, isNaN, Binary64.zero]
  · rfl

theorem dropZeroSign_dropZeroSign (x : Binary64) :
    x.dropZeroSign.dropZeroSign = x.dropZeroSign := by
  cases zero : x.isZero <;> simp [dropZeroSign, zero]

theorem equal_congr {x y : Binary64} (equal : x.equal y = true) (z : Binary64) :
    y.equal z = x.equal z := by
  simp only [Binary64.equal, Bool.and_eq_true, Bool.not_eq_true', beq_iff_eq] at equal
  obtain ⟨⟨first, second⟩, same⟩ := equal
  simp only [Binary64.equal, first, second, same]

theorem eq_nan_of_isNaN {x : Binary64} (undefined : x.isNaN = true) : x = .nan := by
  cases x <;> simp_all [isNaN]

theorem dropZeroSign_eq_iff {x y : Binary64} :
    x.dropZeroSign = y.dropZeroSign ↔ x.SameArgument y := by
  constructor
  · intro same
    have both : x.isNaN = y.isNaN := by
      rw [← isNaN_dropZeroSign x, same, isNaN_dropZeroSign]
    cases undefined : x.isNaN with
    | true => exact .inr ⟨undefined, by rw [← both, undefined]⟩
    | false =>
      left
      rw [undefined] at both
      simp [equal, undefined, ← both, same]
  · rintro (equal | ⟨first, second⟩)
    · simp only [Binary64.equal, Bool.and_eq_true, beq_iff_eq] at equal
      exact equal.2
    · rw [eq_nan_of_isNaN first, eq_nan_of_isNaN second]

theorem dropZeroSign_of_ne {x : Binary64} (other : x ≠ zero true) : x.dropZeroSign = x := by
  unfold dropZeroSign
  split
  · rename_i isZero
    rcases x with _ | negative | ⟨negative, significand, scale, canonical⟩
    · cases isZero
    · cases isZero
    · have nothing : significand = 0 := by simpa [Binary64.isZero] using isZero
      subst nothing
      have least : scale = 0 := canonical.2.2 (by decide)
      subst least
      cases negative with
      | true => exact absurd rfl other
      | false => rfl
  · rfl

end Binary64

namespace CallKey

private theorem map_dropZeroSign_eq_iff {args others : List Binary64} :
    args.map Binary64.dropZeroSign = others.map Binary64.dropZeroSign ↔
      List.Forall₂ Binary64.SameArgument args others := by
  induction args generalizing others with
  | nil => cases others <;> simp
  | cons first rest ih =>
    cases others with
    | nil => simp
    | cons other more => simp [Binary64.dropZeroSign_eq_iff, ih]

/-- Calls of one function share a key when their arguments are the same one by one. -/
theorem ofCall_eq_iff {name other : String} {args others : List Binary64} :
    ofCall name args = ofCall other others ↔
      name = other ∧ List.Forall₂ Binary64.SameArgument args others := by
  rw [← map_dropZeroSign_eq_iff]
  simp [ofCall]

theorem ofCall_of_ne {name : String} {args : List Binary64}
    (signless : ∀ x ∈ args, x ≠ Binary64.zero true) : ofCall name args = ⟨name, args⟩ := by
  have pointwise : args.map Binary64.dropZeroSign = args.map id :=
    List.map_congr_left fun x member => Binary64.dropZeroSign_of_ne (signless x member)
  rw [ofCall, pointwise, List.map_id]

end CallKey

end Calculator

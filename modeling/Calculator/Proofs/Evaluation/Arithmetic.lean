import Mathlib.Data.List.Basic
import Calculator.Builtin.Standard
import Calculator.Evaluation.Expression

namespace Calculator

variable {σ α β : Type}

/-- The fault stands for nan or for infinity. -/
def Fault.Caught (fault : Fault) : Prop :=
  fault.kind = "ValueError" ∨ fault.kind = "OverflowError"

/-- There is a value, or a fault that stands for one. -/
def Recoverable (outcome : Except Fault α) : Prop :=
  ∀ fault, outcome = .error fault → fault.Caught

namespace Recoverable

theorem ok (value : α) : Recoverable (.ok value) := nofun

theorem error {fault : Fault} (caught : fault.Caught) :
    Recoverable (.error fault : Except Fault α) := by
  rintro _ ⟨⟩
  exact caught

theorem map {outcome : Except Fault α} (recoverable : Recoverable outcome) (next : α → β) :
    Recoverable (outcome.map next) := by
  cases outcome with
  | error fault => exact error (recoverable fault rfl)
  | ok value => exact ok (next value)

end Recoverable

namespace Binary64

theorem checkedDiv_of_ne_zero (x : Binary64) {y : Binary64} (nonzero : y.isZero = false) :
    x.checkedDiv y = .ok (x.div y) := by
  rw [checkedDiv, nonzero]
  rfl

theorem checked_recoverable (operation : Binary64 → Binary64) (x : Binary64) :
    Recoverable (checked operation x) := by
  simp only [checked]
  split
  · exact .error (.inl rfl)
  · exact .ok _

theorem checkedPow_recoverable (x y : Binary64) : Recoverable (x.checkedPow y) := by
  simp only [checkedPow]
  split
  · exact .ok _
  · split
    · exact .error (.inl rfl)
    · exact .error (.inr rfl)

theorem checkedInteger_recoverable (operation : Binary64 → Int) (x : Binary64) :
    Recoverable (checkedInteger operation x) := by
  cases x with
  | nan => exact .error (.inl rfl)
  | infinity negative => exact .error (.inr rfl)
  | finite negative significand scale canonical => exact .ok _

end Binary64

namespace BinaryOp

theorem exists_divide (x y : Binary64) : ∃ value, divide x y = .ok value := by
  cases nonzero : y.isZero with
  | true =>
    simp only [divide, nonzero, if_true]
    split
    · exact ⟨_, rfl⟩
    · exact ⟨_, rfl⟩
  | false => exact ⟨x.div y, by simp [divide, nonzero, x.checkedDiv_of_ne_zero nonzero]⟩

theorem exists_power (x y : Binary64) : ∃ value, power x y = .ok value := by
  unfold power
  split
  · exact ⟨_, rfl⟩
  · cases raised : x.checkedPow y with
    | ok value => exact ⟨value, rfl⟩
    | error fault =>
      obtain domain | range := x.checkedPow_recoverable y fault raised
      · simp [domain]
      · simp [range]

/-- An operator has a value for all numbers, also where nothing is defined, unless it is unknown. -/
theorem apply_cases (op : BinaryOp) (x y : Binary64) :
    (∃ value, op.apply x y = .ok value) ∨ ∃ symbol, op = .other symbol := by
  cases op with
  | other symbol => exact .inr ⟨symbol, rfl⟩
  | div =>
    obtain ⟨value, given⟩ := exists_divide x y
    exact .inl ⟨value, by rw [apply, given, Except.mapError]⟩
  | pow =>
    obtain ⟨value, given⟩ := exists_power x y
    exact .inl ⟨value, by rw [apply, given, Except.mapError]⟩
  | _ => exact .inl ⟨_, rfl⟩

end BinaryOp

namespace Builtin

theorem exists_shielded {outcome : Except Fault Binary64} (recoverable : Recoverable outcome) :
    ∃ value, shielded outcome = .ok value := by
  cases outcome with
  | ok value => exact ⟨value, rfl⟩
  | error fault =>
    obtain domain | range := recoverable fault rfl
    · simp [shielded, domain]
    · simp [shielded, range]

/-- The builtin gives a number for as many arguments as it is made for. -/
def Faultless (builtin : Builtin σ) : Prop :=
  ∀ args hidden, builtin.arity = args.length → ∃ value, (builtin.run args hidden).1 = .ok value

def AllFaultless (builtins : Table (Builtin σ)) : Prop :=
  ∀ name builtin, builtins.get? name = some builtin → builtin.Faultless

theorem guarded_faultless {arity : Nat} {doc : String}
    {operation : List Binary64 → σ → Except Fault Binary64 × σ}
    (recoverable : ∀ args state, arity = args.length → Recoverable (operation args state).1) :
    (guarded arity doc operation).Faultless :=
  fun args hidden given => exists_shielded (recoverable args hidden given)

theorem unary_faultless {signature : Signature} {operation : Binary64 → Except Fault Binary64}
    {doc : String} (recoverable : ∀ x, Recoverable (operation x)) :
    (unary signature operation doc : Builtin σ).Faultless := by
  apply guarded_faultless
  intro args hidden arity
  obtain ⟨x, rfl⟩ := List.length_eq_one_iff.mp arity.symm
  exact recoverable x

theorem selection_faultless (name : String) (pick : Binary64 → Binary64 → Binary64)
    (doc : String) : (selection name pick doc : Builtin σ).Faultless := by
  apply guarded_faultless
  intro args hidden arity
  obtain ⟨x, y, rfl⟩ := List.length_eq_two.mp arity.symm
  exact .ok (pick x y)

end Builtin

namespace Standard

open Binary64

theorem random_faultless (draw : σ → Binary64 × σ) : (random draw).Faultless := by
  apply Builtin.guarded_faultless
  intro args hidden arity
  obtain rfl := List.length_eq_zero_iff.mp arity.symm
  exact .ok (draw hidden).1

theorem randomInteger_faultless (draw : σ → Binary64 × σ) : (randomInteger draw).Faultless := by
  apply Builtin.guarded_faultless
  intro args hidden arity
  obtain ⟨low, high, rfl⟩ := List.length_eq_two.mp arity.symm
  exact (checkedInteger_recoverable floorInt _).map _

theorem logarithm_faultless (operation : Binary64 → Binary64) (doc : String) :
    (logarithm operation doc : Builtin σ).Faultless := by
  apply Builtin.unary_faultless
  intro x
  split
  · exact .ok _
  · exact checked_recoverable operation x

theorem integral_faultless {operation : Binary64 → Except Fault Int}
    (recoverable : ∀ x, Recoverable (operation x)) (doc : String) :
    (integral operation doc : Builtin σ).Faultless := by
  apply Builtin.unary_faultless
  intro x
  split
  · exact (recoverable x).map _
  · exact .ok x

theorem trigonometric_faultless (label : String) (operation : Binary64 → Binary64)
    (doc : String) : (trigonometric label operation doc : Builtin σ).Faultless :=
  Builtin.unary_faultless (checked_recoverable operation)

theorem rounded_recoverable (x : Binary64) : Recoverable (rounded x) :=
  checkedInteger_recoverable floorInt (x.add half)

theorem radians_recoverable (x : Binary64) : Recoverable (radians x) := by
  rw [radians, checkedDiv_of_ne_zero _ (by decide +kernel)]
  exact .ok _

theorem builtins_faultless (draw : σ → Binary64 × σ) :
    Builtin.AllFaultless (Standard.builtins draw) := by
  have each : ∀ entry ∈ (Standard.builtins draw).entries, entry.2.Faultless := by
    simp only [Standard.builtins, List.forall_mem_cons, random_faultless, randomInteger_faultless,
      Builtin.selection_faultless, logarithm_faultless, trigonometric_faultless,
      integral_faultless (checkedInteger_recoverable _), integral_faultless rounded_recoverable,
      Builtin.unary_faultless radians_recoverable, List.not_mem_nil, false_implies, implies_true,
      and_self]
  intro name builtin given
  obtain ⟨before, after, entries, -⟩ := List.lookup_eq_some_iff.mp given
  exact each (name, builtin) (by simp [entries])

end Standard

end Calculator

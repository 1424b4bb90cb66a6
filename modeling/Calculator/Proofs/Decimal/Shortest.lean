import Calculator.Decimal.Shortest
import Calculator.Proofs.Binary64.Rounding

namespace Calculator.Decimal

def value (decimal : Decimal) : ℚ :=
  decimal.digits * 10 ^ decimal.exponent

section Reading

variable {decimal other : Decimal}

theorem toBinary64_congr (same : decimal.value = other.value) :
    decimal.toBinary64 = other.toBinary64 :=
  Binary64.ofDecimal_congr same

theorem reach_toBinary64_le (le : decimal.value ≤ other.value) :
    decimal.toBinary64.reach ≤ other.toBinary64.reach :=
  Binary64.reach_ofDecimal_le le

end Reading

theorem dropZeros_value (fuel : Nat) (decimal : Decimal) :
    (dropZeros fuel decimal).value = decimal.value := by
  fun_induction dropZeros fuel decimal with
  | case1 decimal => rfl
  | case2 fuel decimal ends ih =>
    have whole : decimal.digits = decimal.digits / 10 * 10 := by omega
    rw [ih, value, value, zpow_add₀ (by norm_num : (10 : ℚ) ≠ 0)]
    nth_rewrite 2 [whole]
    push_cast
    ring
  | case3 fuel decimal ends => rfl

theorem neighbour?_toBinary64 {x : Binary64} {numerator denominator : Nat} {exponent : Int}
    {decimal : Decimal} (found : neighbour? x numerator denominator exponent = some decimal) :
    decimal.toBinary64 = x := by
  have either : ∀ first second : Decimal,
      (if first.toBinary64 = x then some first
        else if second.toBinary64 = x then some second else none) = some decimal →
      decimal.toBinary64 = x := by
    intro first second picked
    split at picked
    next reads => rwa [← Option.some.inj picked]
    next =>
      split at picked
      next reads => rwa [← Option.some.inj picked]
      next => cases picked
  exact either _ _ found

theorem exact_toBinary64 {x : Binary64} (finite : x.isFinite = true) :
    (exact x.units).toBinary64 = x.withSign false := by
  obtain ⟨numerator, denominator, positive, quotient, rounded⟩ :=
    Binary64.ofDecimal_eq (exact x.units).digits (exact x.units).exponent
  have same : (numerator : ℚ) / denominator = (x.units * 1 : Nat) / (1 : Nat) := by
    rw [quotient, exact, zpow_neg, zpow_natCast, show (10 : ℚ) = 5 * 2 by norm_num, mul_pow]
    push_cast
    field_simp
  rw [toBinary64, rounded, Binary64.ofUnits_congr false positive Nat.one_pos same]
  exact Binary64.ofUnits_exact finite false Nat.one_pos

theorem shortest_toBinary64 {x : Binary64} (finite : x.isFinite = true) :
    (shortest x).toBinary64 = x.withSign false := by
  simp only [shortest]
  rw [toBinary64_congr (dropZeros_value _ _)]
  cases search : (List.range greatestDigitCount).findSome? fun more : Nat =>
      neighbour? (x.withSign false) x.units (2 ^ Binary64.unitExponent)
        (leadingExponent x.units (2 ^ Binary64.unitExponent) - more) with
  | none => exact exact_toBinary64 finite
  | some decimal =>
    obtain ⟨more, -, found⟩ := List.exists_of_findSome?_eq_some search
    exact neighbour?_toBinary64 found

/-- The sign of a number has no part in its shortest decimal. -/
theorem shortest_withSign (negative : Bool) (x : Binary64) :
    shortest (x.withSign negative) = shortest x := by
  have units : (x.withSign negative).units = x.units := by cases x <;> rfl
  simp only [shortest, units, Binary64.withSign_withSign]

theorem digits_ne_zero_of_toBinary64 {x : Binary64} (nonzero : x.isZero = false)
    {decimal : Decimal} (reads : decimal.toBinary64 = x.withSign false) : decimal.digits ≠ 0 := by
  intro none
  have same : decimal.toBinary64 = (⟨0, 0⟩ : Decimal).toBinary64 :=
    toBinary64_congr (by simp [value, none])
  have zero : (⟨0, 0⟩ : Decimal).toBinary64 = Binary64.zero false := by decide +kernel
  have sign : (x.withSign false).isZero = x.isZero := by cases x <;> rfl
  rw [← reads, same, zero, nonzero] at sign
  cases sign

theorem shortest_digits_ne_zero {x : Binary64} (finite : x.isFinite = true)
    (nonzero : x.isZero = false) : (shortest x).digits ≠ 0 :=
  digits_ne_zero_of_toBinary64 nonzero (shortest_toBinary64 finite)

/-- The place of the point, counted from before the first digit. -/
def point (decimal : Decimal) : Int :=
  decimal.exponent + digitCount decimal.digits

section Point

variable {decimal : Decimal}

theorem digitCount_bounds {n : Nat} (nonzero : n ≠ 0) :
    10 ^ (digitCount n - 1) ≤ n ∧ n < 10 ^ digitCount n := by
  have positive : 0 < digitCount n := Nat.length_toDigits_pos
  refine ⟨?_, (Nat.length_toDigits_le_iff (by decide) positive).mp le_rfl⟩
  by_contra less
  by_cases single : digitCount n - 1 = 0
  · rw [single, pow_zero] at less
    omega
  · have shorter : digitCount n ≤ digitCount n - 1 :=
      (Nat.length_toDigits_le_iff (by decide) (by omega)).mpr (by omega)
    omega

/-- A decimal is below a power of ten just when its point is not behind that power. -/
theorem value_lt_iff (nonzero : decimal.digits ≠ 0) (exponent : Int) :
    decimal.value < 10 ^ exponent ↔ decimal.point ≤ exponent := by
  obtain ⟨least, most⟩ := digitCount_bounds nonzero
  have ten : (10 : ℚ) ≠ 0 := by norm_num
  have positive : 0 < digitCount decimal.digits := Nat.length_toDigits_pos
  have power : (0 : ℚ) < 10 ^ decimal.exponent := zpow_pos (by norm_num) _
  have lower : (10 : ℚ) ^ (decimal.point - 1) ≤ decimal.value := by
    have split : decimal.point - 1 =
        ((digitCount decimal.digits - 1 : Nat) : Int) + decimal.exponent := by
      unfold point
      omega
    rw [split, zpow_add₀ ten, zpow_natCast, value]
    gcongr
    exact_mod_cast least
  have upper : decimal.value < (10 : ℚ) ^ decimal.point := by
    rw [point, add_comm, zpow_add₀ ten, zpow_natCast, value]
    gcongr
    exact_mod_cast most
  constructor
  · intro less
    have := (zpow_lt_zpow_iff_right₀ (by norm_num : (1 : ℚ) < 10)).mp (lower.trans_lt less)
    omega
  · intro le
    exact upper.trans_le (zpow_le_zpow_right₀ (by norm_num) le)

end Point

/-- A number is less than the one that a power of ten reads as just when its shortest decimal is
less than the power, provided that the power is a shortest decimal itself. -/
theorem less_iff_value_lt {x : Binary64} (finite : x.isFinite = true) {exponent : Int}
    (own : shortest (.ofDecimal 1 exponent) = ⟨1, exponent⟩) :
    (x.withSign false).less (.ofDecimal 1 exponent) = true ↔
      (shortest x).value < 10 ^ exponent := by
  have number := Binary64.isNaN_of_isFinite finite
  have bound : (⟨1, exponent⟩ : Decimal).value = 10 ^ exponent := by simp [value]
  have far : (shortest x).toBinary64.reach = x.reach := by
    rw [shortest_toBinary64 finite, Binary64.reach_withSign]
  rw [← Binary64.withSign_ofDecimal,
    Binary64.less_withSign_false number (Binary64.isNaN_ofDecimal _ _), decide_eq_true_iff, ← far,
    ← bound]
  constructor
  · intro less
    by_contra notLess
    exact absurd (reach_toBinary64_le (not_lt.mp notLess)) (not_le.mpr less)
  · intro less
    refine lt_of_le_of_ne (reach_toBinary64_le less.le) fun same => ?_
    -- A number at the power itself would have the power for its shortest decimal.
    have equal := Binary64.withSign_eq_of_reach_eq number (Binary64.isNaN_ofDecimal 1 exponent)
      (far.symm.trans same) false
    have shortestEqual : shortest x = ⟨1, exponent⟩ := by
      rw [← shortest_withSign false x, equal, Binary64.withSign_ofDecimal, own]
    rw [shortestEqual] at less
    exact lt_irrefl _ less

end Calculator.Decimal

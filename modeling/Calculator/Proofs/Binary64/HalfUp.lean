import Mathlib.Algebra.Ring.Int.Parity
import Calculator.Builtin.Standard
import Calculator.Proofs.Binary64.Value

/-!
Rounding to an integer by adding one half. The sum is rounded before its floor is taken, and the
floor of the rounded sum is that of the exact sum wherever both lie between two representable
numbers without an integer between them. It is one too great in the other places: at the greatest
number below one half, and at the odd integers that are too great to have halves beside them.
-/

namespace Calculator

namespace Binary64

/-- The values whose sum with one half lies half way below a number that is an integer too great:
the greatest value below one half, and the odd integers where all numbers are integers and all
integers are numbers. -/
def Overshoots (value : ℚ) : Prop :=
  value = 1 / 2 - 1 / 2 ^ 54 ∨
    ∃ n : Int, Odd n ∧ 2 ^ 52 < n.natAbs ∧ n.natAbs < 2 ^ 53 ∧ value = n

/-- The floor of the exact sum of a number of units with one half. -/
def halfUp (n : Int) : Int :=
  (n + half.signedUnits) / unity

/-- The floor of the rounded sum of a number of units with one half. -/
def halfUpRounded (n : Int) : Int :=
  nearestUnits (n + half.signedUnits) / unity

section Half

theorem half_signedUnits : half.signedUnits = 2 ^ 1073 := by
  have whole : half.signedUnits = (2 ^ 52 * 2 ^ 1021 : Nat) := rfl
  rw [whole, ← pow_add, Nat.cast_pow, Nat.cast_ofNat]

theorem unity_eq_two_pow : unity = 2 ^ 1074 :=
  rfl

theorem two_mul_half : 2 * half.signedUnits = unity := by
  have halved := half_signedUnits
  have whole := unity_eq_two_pow
  omega

theorem half_pos : 0 < half.signedUnits := by
  have := two_mul_half
  have := unity_pos
  omega

theorem halfUp_mul_unity (n : Int) : halfUp (n * unity) = n := by
  have double := two_mul_half
  have positive := half_pos
  rw [halfUp, Int.add_comm, Int.add_mul_ediv_right _ _ unity_pos.ne',
    Int.ediv_eq_zero_of_lt positive.le (by omega), zero_add]

theorem exists_half_units {scale : Nat} (high : 1074 ≤ scale) :
    ∃ part : Nat, half.signedUnits = part ∧ 0 < part ∧ 2 * part ≤ 2 ^ scale ∧
      (2 ^ scale = 2 * part ↔ scale = 1074) := by
  have whole := two_mul_half
  rw [unity_eq_two_pow] at whole
  obtain ⟨part, signed⟩ := Int.eq_ofNat_of_zero_le half_pos.le
  have double : 2 * part = 2 ^ 1074 := by omega
  refine ⟨part, signed, by omega, ?_⟩
  rw [double, Nat.pow_right_inj (by decide)]
  exact ⟨two_pow_le high, Iff.rfl⟩

theorem halfUpRounded_of_representable {n : Int} (exact : Representable (n + half.signedUnits)) :
    halfUpRounded n = halfUp n := by
  rw [halfUpRounded, nearestUnits_of_representable exact, halfUp]

/-- Rounding the sum does not matter between representable bounds with the same floor. -/
theorem halfUpRounded_of_between {low n high : Int} (lower : Representable low)
    (upper : Representable high) (above : low ≤ n + half.signedUnits)
    (below : n + half.signedUnits ≤ high) (cell : low / unity = high / unity) :
    halfUpRounded n = halfUp n := by
  have nearLow := nearestUnits_le above
  have nearHigh := nearestUnits_le below
  rw [nearestUnits_of_representable lower] at nearLow
  rw [nearestUnits_of_representable upper] at nearHigh
  have := Int.ediv_le_ediv unity_pos nearLow
  have := Int.ediv_le_ediv unity_pos nearHigh
  have := Int.ediv_le_ediv unity_pos above
  have := Int.ediv_le_ediv unity_pos below
  unfold halfUpRounded halfUp
  omega

end Half

section Fractions

variable {negative : Bool} {significand scale : Nat}

/-- Below one half in magnitude the sum stays below one, but for the greatest number. -/
theorem halfUpRounded_of_small (canonical : Canonical significand scale) (low : scale ≤ 1020)
    (other : ¬(negative = false ∧ significand = 2 ^ 53 - 1 ∧ scale = 1020)) :
    halfUpRounded (finite negative significand scale canonical).signedUnits =
      halfUp (finite negative significand scale canonical).signedUnits := by
  have halved := half_signedUnits
  have whole := unity_eq_two_pow
  have bound : significand * 2 ^ scale ≤ 2 ^ 53 * 2 ^ 1020 :=
    Nat.mul_le_mul canonical.1.le (two_pow_le low)
  have tight : negative = false → significand * 2 ^ scale ≤ (2 ^ 53 - 2) * 2 ^ 1020 := by
    intro positive
    by_cases full : scale = 1020
    · have narrow := canonical.1
      have last : significand ≠ 2 ^ 53 - 1 := fun same => other ⟨positive, same, full⟩
      rw [full]
      exact Nat.mul_le_mul_right _ (by omega)
    · have less : significand * 2 ^ scale ≤ 2 ^ 53 * 2 ^ 1019 :=
        Nat.mul_le_mul canonical.1.le (two_pow_le (by omega))
      omega
  have bounds : 0 ≤ (finite negative significand scale canonical).signedUnits + half.signedUnits ∧
      (finite negative significand scale canonical).signedUnits + half.signedUnits ≤
        (2 ^ 53 - 1) * 2 ^ 1021 := by
    cases negative with
    | true =>
      have units : (finite true significand scale canonical).signedUnits =
        -((significand * 2 ^ scale : Nat) : Int) := rfl
      omega
    | false =>
      have units : (finite false significand scale canonical).signedUnits =
        ((significand * 2 ^ scale : Nat) : Int) := rfl
      have := tight rfl
      omega
  refine halfUpRounded_of_between representable_zero (representable_mul (by decide) (by decide))
    bounds.1 bounds.2 ?_
  rw [Int.ediv_eq_zero_of_lt, Int.ediv_eq_zero_of_lt] <;> omega

/-- Within one half behind a power of two that is an integer, where the numbers are still as fine as
the halves. -/
theorem halfUpRounded_behind_power {n : Int} {fewer : Nat} (halves : scale + (fewer + 1) = 1073)
    (low : 1021 ≤ scale) (above : 2 ^ 53 * 2 ^ scale ≤ n + half.signedUnits)
    (below : n ≤ 2 ^ 53 * 2 ^ scale) : halfUpRounded n = halfUp n := by
  have halved : half.signedUnits = 2 ^ (fewer + 1) * 2 ^ scale := by
    rw [half_signedUnits, ← halves, pow_add, mul_comm]
  have lower : Representable (2 ^ 53 * 2 ^ scale) := representable_mul (by decide) (by omega)
  have upper : Representable (2 ^ 53 * 2 ^ scale + half.signedUnits) := by
    have doubled : 2 ^ 53 * 2 ^ scale + half.signedUnits =
        (2 ^ 52 + 2 ^ fewer) * 2 ^ (scale + 1) := by
      rw [halved]
      ring
    have narrow : 2 ^ fewer ≤ 2 ^ 52 := two_pow_le (by omega)
    rw [doubled]
    apply representable_mul _ (by omega)
    exact_mod_cast (by omega : 2 ^ 52 + 2 ^ fewer ≤ 2 ^ 53)
  have integer : 2 ^ 53 * 2 ^ scale = 2 ^ (51 - fewer) * unity := by
    have split : 53 = 51 - fewer + (fewer + 1) + 1 := by omega
    rw [← two_mul_half, halved]
    nth_rewrite 1 [split]
    rw [pow_succ, pow_add]
    ring
  refine halfUpRounded_of_between lower upper above (by omega) ?_
  have floor := halfUp_mul_unity (2 ^ (51 - fewer))
  rw [integer, Int.mul_ediv_cancel _ unity_pos.ne', ← halfUp, floor]

/-- From one half up to where halves end in magnitude the sum is exact, unless it passes a power of
two. -/
theorem halfUpRounded_of_middle (canonical : Canonical significand scale) (low : 1021 ≤ scale)
    (high : scale ≤ 1073) :
    halfUpRounded (finite negative significand scale canonical).signedUnits =
      halfUp (finite negative significand scale canonical).signedUnits := by
  have wide : 2 ^ 52 ≤ significand := canonical.wide (by omega)
  have narrow := canonical.1
  obtain ⟨less, halves⟩ := Nat.exists_eq_add_of_le high
  have small : (2 : Int) ^ less ≤ 2 ^ 52 := pow_le_pow_right₀ (by decide) (by omega)
  have positive : (0 : Int) < 2 ^ less := by positivity
  have product : (finite negative significand scale canonical).signedUnits + half.signedUnits =
      ((if negative then -(significand : Int) else significand) + 2 ^ less) * 2 ^ scale := by
    rw [signedUnits_finite, half_signedUnits, halves, pow_add]
    ring
  by_cases fits :
      ((if negative then -(significand : Int) else significand) + 2 ^ less).natAbs ≤ 2 ^ 53
  · apply halfUpRounded_of_representable
    rw [product]
    exact representable_mul fits (by omega)
  · cases negative with
    | true =>
      simp only [if_true] at fits
      omega
    | false =>
      simp only [Bool.false_eq_true, if_false] at fits product
      have some : less ≠ 0 := by
        rintro rfl
        omega
      obtain ⟨fewer, rfl⟩ := Nat.exists_eq_add_one_of_ne_zero some
      refine halfUpRounded_behind_power halves.symm low ?_ ?_
      · rw [product]
        gcongr
        omega
      · rw [signedUnits_finite]
        simp only [Bool.false_eq_true, if_false]
        gcongr
        omega

/-- At the greatest number below one half the sum lies half way below one and goes up to it. -/
theorem halfUpRounded_below_half (canonical : Canonical (2 ^ 53 - 1) 1020) :
    halfUpRounded (finite false (2 ^ 53 - 1) 1020 canonical).signedUnits =
      halfUp (finite false (2 ^ 53 - 1) 1020 canonical).signedUnits + 1 := by
  have halved := half_signedUnits
  have whole := unity_eq_two_pow
  have units : (finite false (2 ^ 53 - 1) 1020 canonical).signedUnits =
    ((2 ^ 53 - 1) * 2 ^ 1020 : Nat) := rfl
  have sum : (finite false (2 ^ 53 - 1) 1020 canonical).signedUnits + half.signedUnits =
      ((2 ^ 53 - 1) * 2 ^ 1021 + 2 ^ 1020 : Nat) := by
    omega
  have up : 2 ^ 1021 < 2 * 2 ^ 1020 ∨ 2 ^ 1021 = 2 * 2 ^ 1020 ∧ (2 ^ 53 - 1) % 2 = 1 := by omega
  have rounded : nearestUnits ((2 ^ 53 - 1) * 2 ^ 1021 + 2 ^ 1020 : Nat) = unity := by
    rw [nearestUnits_of_rest ⟨by decide, by decide, by decide⟩ (by omega), if_pos up]
    omega
  rw [halfUpRounded, halfUp, sum, rounded, Int.ediv_self unity_pos.ne',
    Int.ediv_eq_zero_of_lt (by omega) (by omega), zero_add]

end Fractions

section Integers

variable {negative : Bool} {significand scale : Nat} {n : Int}

/-- One half above an integer without halves: a tie where the steps are of one. -/
theorem nearestUnits_add_half (canonical : Canonical significand scale) (high : 1074 ≤ scale) :
    nearestUnits ((significand * 2 ^ scale : Nat) + half.signedUnits) =
      ((if scale = 1074 ∧ significand % 2 = 1 then significand + 1 else significand) * 2 ^ scale :
        Nat) := by
  obtain ⟨part, signed, positive, step, tie⟩ := exists_half_units high
  rw [signed, ← Nat.cast_add, nearestUnits_of_rest canonical (by omega)]
  simp only [tie, step.not_gt, false_or]

/-- One half below an integer without halves, the integer before it being of the same scale. -/
theorem nearestUnits_sub_half (canonical : Canonical significand scale) (high : 1074 ≤ scale) :
    nearestUnits (((significand + 1) * 2 ^ scale : Nat) - half.signedUnits) =
      ((if scale = 1074 ∧ significand % 2 = 0 then significand else significand + 1) * 2 ^ scale :
        Nat) := by
  obtain ⟨part, signed, positive, step, tie⟩ := exists_half_units high
  have difference : (((significand + 1) * 2 ^ scale : Nat) : Int) - part =
      (significand * 2 ^ scale + (2 ^ scale - part) : Nat) := by
    rw [Nat.succ_mul]
    omega
  have up : 2 ^ scale < 2 * (2 ^ scale - part) ∨
      2 ^ scale = 2 * (2 ^ scale - part) ∧ significand % 2 = 1 ↔
        ¬(scale = 1074 ∧ significand % 2 = 0) := by
    omega
  rw [signed, difference, nearestUnits_of_rest canonical (by omega)]
  simp only [up, ite_not]

/-- One half below a power of two, the integers before it being of a smaller scale. -/
theorem nearestUnits_sub_half_power (canonical : Canonical (2 ^ 53 - 1) scale)
    (high : 1074 ≤ scale) :
    nearestUnits ((2 ^ 53 * 2 ^ scale : Nat) - half.signedUnits) = (2 ^ 53 * 2 ^ scale : Nat) := by
  obtain ⟨part, signed, positive, step, tie⟩ := exists_half_units high
  have difference : ((2 ^ 53 * 2 ^ scale : Nat) : Int) - part =
      ((2 ^ 53 - 1) * 2 ^ scale + (2 ^ scale - part) : Nat) := by
    omega
  rw [signed, difference, nearestUnits_of_rest canonical (by omega), if_pos (by omega),
    Nat.sub_add_cancel Nat.one_le_two_pow]

theorem halfUpRounded_of_positive (canonical : Canonical significand scale) (high : 1074 ≤ scale)
    (integer : ((significand * 2 ^ scale : Nat) : Int) = n * unity) :
    halfUpRounded (n * unity) = n + if scale = 1074 ∧ significand % 2 = 1 then 1 else 0 := by
  rw [halfUpRounded, ← integer, nearestUnits_add_half canonical high]
  split_ifs with odd
  · have next : (((significand + 1) * 2 ^ scale : Nat) : Int) = (n + 1) * unity := by
      rw [Nat.succ_mul, Nat.cast_add, integer, odd.1, add_mul, one_mul, unity_eq_two_pow,
        Nat.cast_pow, Nat.cast_ofNat]
    rw [next, Int.mul_ediv_cancel _ unity_pos.ne']
  · rw [integer, Int.mul_ediv_cancel _ unity_pos.ne', add_zero]

/-- A negative power of two is kept, whether there are halves behind it or not. -/
theorem halfUpRounded_of_negative_power (canonical : Canonical (2 ^ 52) scale)
    (high : 1074 ≤ scale) (integer : ((2 ^ 52 * 2 ^ scale : Nat) : Int) = n * unity) :
    halfUpRounded (-(n * unity)) = -n := by
  by_cases least : scale = 1074
  · have exact : Representable (-(n * unity) + half.signedUnits) := by
      have units : -(n * unity) + half.signedUnits = (1 - 2 ^ 53) * 2 ^ 1073 := by
        rw [← integer, half_signedUnits, least]
        omega
      rw [units]
      exact representable_mul (by decide) (by decide)
    rw [halfUpRounded_of_representable exact, ← neg_mul, halfUp_mul_unity]
  · obtain ⟨lower, rfl⟩ := Nat.exists_eq_add_one_of_ne_zero (by omega : scale ≠ 0)
    have before : Canonical (2 ^ 53 - 1) lower :=
      ⟨by decide, by have := canonical.2.1; omega, by omega⟩
    have moved : 2 ^ 52 * 2 ^ (lower + 1) = 2 ^ 53 * 2 ^ lower := by ring
    rw [moved] at integer
    have rounded := nearestUnits_sub_half_power before (by omega)
    rw [integer] at rounded
    rw [halfUpRounded, neg_add_eq_sub, ← neg_sub, nearestUnits_neg, rounded, ← neg_mul,
      Int.mul_ediv_cancel _ unity_pos.ne']

/-- Any other negative integer is kept as well, unless it is odd where the steps are of one. -/
theorem halfUpRounded_of_negative (before : Canonical significand scale) (high : 1074 ≤ scale)
    (integer : (((significand + 1) * 2 ^ scale : Nat) : Int) = n * unity) :
    halfUpRounded (-(n * unity)) =
      -n + if scale = 1074 ∧ significand % 2 = 0 then 1 else 0 := by
  rw [halfUpRounded, neg_add_eq_sub, ← neg_sub, nearestUnits_neg, ← integer,
    nearestUnits_sub_half before high]
  split_ifs with odd
  · have previous : ((significand * 2 ^ scale : Nat) : Int) = (n - 1) * unity := by
      rw [Nat.succ_mul, Nat.cast_add] at integer
      rw [sub_mul, one_mul, ← integer, odd.1, unity_eq_two_pow, Nat.cast_pow, Nat.cast_ofNat,
        add_sub_cancel_right]
    rw [previous, ← neg_mul, Int.mul_ediv_cancel _ unity_pos.ne']
    ring
  · rw [integer, ← neg_mul, Int.mul_ediv_cancel _ unity_pos.ne', add_zero]

/-- From where halves end in magnitude every number is an integer. It is kept, unless it is odd
where the steps are of one. -/
theorem halfUpRounded_of_large (canonical : Canonical significand scale) (high : 1074 ≤ scale) :
    halfUpRounded (finite negative significand scale canonical).signedUnits =
      halfUp (finite negative significand scale canonical).signedUnits +
        if scale = 1074 ∧ significand % 2 = 1 then 1 else 0 := by
  obtain ⟨n, integer⟩ : unity ∣ ((significand * 2 ^ scale : Nat) : Int) :=
    @unity_dvd false significand scale canonical high
  rw [mul_comm unity n] at integer
  cases negative with
  | false =>
    have units : (finite false significand scale canonical).signedUnits = n * unity := integer
    rw [units, halfUp_mul_unity, halfUpRounded_of_positive canonical high integer]
  | true =>
    have units : (finite true significand scale canonical).signedUnits = -(n * unity) :=
      congrArg (-·) integer
    have floor : halfUp (-(n * unity)) = -n := by rw [← neg_mul, halfUp_mul_unity]
    have wide := canonical.wide (by omega)
    rw [units, floor]
    by_cases power : significand = 2 ^ 52
    · subst power
      rw [halfUpRounded_of_negative_power canonical high integer, if_neg (by omega), add_zero]
    · obtain ⟨less, rfl⟩ := Nat.exists_eq_add_one_of_ne_zero (by omega : significand ≠ 0)
      have before : Canonical less scale :=
        ⟨by have := canonical.1; omega, canonical.2.1, by omega⟩
      have parity : less % 2 = 0 ↔ (less + 1) % 2 = 1 := by omega
      rw [halfUpRounded_of_negative before high integer]
      simp only [parity]

end Integers

section Round

variable {x y : Binary64} {negative : Bool} {significand scale : Nat}

theorem value_eq_below_half_iff {x : Binary64} :
    x.value = 1 / 2 - 1 / 2 ^ 54 ↔ x.signedUnits = (2 ^ 53 - 1) * 2 ^ 1020 := by
  have nonzero : (unity : ℚ) ≠ 0 := by exact_mod_cast unity_pos.ne'
  have whole : (1 / 2 - 1 / 2 ^ 54) * (unity : ℚ) = (2 ^ 53 - 1) * 2 ^ 1020 := by
    rw [unity_eq (by decide : 1020 ≤ unitExponent), show unitExponent - 1020 = 54 from rfl,
      Int.cast_mul, Int.cast_pow, Int.cast_pow, Int.cast_ofNat]
    generalize (2 : ℚ) ^ 1020 = step
    ring
  rw [value, div_eq_iff nonzero, whole, ← Int.cast_inj (α := ℚ)]
  simp only [Int.cast_mul, Int.cast_sub, Int.cast_pow, Int.cast_ofNat, Int.cast_one]

theorem eq_below_half_iff {canonical : Canonical significand scale} :
    (finite negative significand scale canonical).signedUnits = (2 ^ 53 - 1) * 2 ^ 1020 ↔
      negative = false ∧ significand = 2 ^ 53 - 1 ∧ scale = 1020 := by
  constructor
  · intro same
    have magnitude : _ = significand * 2 ^ scale :=
      natAbs_signedUnits (finite negative significand scale canonical)
    have units : significand * 2 ^ scale = (2 ^ 53 - 1) * 2 ^ 1020 := by omega
    obtain ⟨rfl, rfl⟩ := canonical.unique ⟨by decide, by decide, by decide⟩ units
    cases negative with
    | true =>
      have below : (finite true (2 ^ 53 - 1) 1020 canonical).signedUnits =
        -(((2 ^ 53 - 1) * 2 ^ 1020 : Nat) : Int) := rfl
      omega
    | false => exact ⟨rfl, rfl, rfl⟩
  · rintro ⟨rfl, rfl, rfl⟩
    have units : (finite false (2 ^ 53 - 1) 1020 canonical).signedUnits =
      (((2 ^ 53 - 1) * 2 ^ 1020 : Nat) : Int) := rfl
    omega

theorem exists_odd_iff {canonical : Canonical significand scale} :
    (∃ n : Int, Odd n ∧ 2 ^ 52 < n.natAbs ∧ n.natAbs < 2 ^ 53 ∧
        (finite negative significand scale canonical).signedUnits = n * unity) ↔
      scale = 1074 ∧ significand % 2 = 1 := by
  constructor
  · rintro ⟨n, odd, low, high, same⟩
    have magnitude := natAbs_signedUnits (finite negative significand scale canonical)
    rw [same, Int.natAbs_mul, natAbs_unity, units] at magnitude
    obtain ⟨rfl, rfl⟩ := canonical.unique ⟨high, by decide, by omega⟩ magnitude.symm
    rw [Int.odd_iff] at odd
    exact ⟨rfl, by omega⟩
  · rintro ⟨rfl, odd⟩
    have wide := canonical.wide (by decide)
    have narrow := canonical.1
    refine ⟨if negative then -(significand : Int) else significand, ?_, ?_, ?_,
      signedUnits_finite canonical⟩
    · rw [Int.odd_iff]
      split_ifs <;> omega
    · split_ifs <;> omega
    · split_ifs <;> omega

theorem overshoots_iff {canonical : Canonical significand scale} :
    Overshoots (finite negative significand scale canonical).value ↔
      (negative = false ∧ significand = 2 ^ 53 - 1 ∧ scale = 1020) ∨
        scale = 1074 ∧ significand % 2 = 1 := by
  unfold Overshoots
  simp only [value_eq_below_half_iff, eq_below_half_iff, value_eq_iff, exists_odd_iff]

/-- The floor of the rounded sum is that of the exact sum, or the next integer. -/
theorem halfUpRounded_eq (finite : x.isFinite = true) :
    (¬Overshoots x.value → halfUpRounded x.signedUnits = halfUp x.signedUnits) ∧
      (Overshoots x.value → halfUpRounded x.signedUnits = halfUp x.signedUnits + 1) := by
  cases x with
  | nan => cases finite
  | infinity sign => cases finite
  | finite negative significand scale canonical =>
    rw [overshoots_iff]
    by_cases small : scale ≤ 1020
    · refine ⟨fun other => halfUpRounded_of_small canonical small fun last => other (.inl last), ?_⟩
      rintro (⟨rfl, rfl, rfl⟩ | ⟨large, -⟩)
      · exact halfUpRounded_below_half canonical
      · omega
    · by_cases middle : scale ≤ 1073
      · exact ⟨fun _ => halfUpRounded_of_middle canonical (by omega) middle, fun both => by omega⟩
      · rw [halfUpRounded_of_large canonical (by omega)]
        constructor
        · intro other
          rw [if_neg fun odd => other (.inr odd), add_zero]
        · rintro (⟨-, -, low⟩ | odd)
          · omega
          · rw [if_pos odd]

theorem units_le_greatest (finite : x.isFinite = true) : x.units ≤ (2 ^ 53 - 1) * 2 ^ 2045 := by
  cases x with
  | nan => cases finite
  | infinity sign => cases finite
  | finite negative significand scale canonical =>
    exact Nat.mul_le_mul (Nat.le_sub_one_of_lt canonical.1) (two_pow_le canonical.2.1)

theorem lt_of_ediv_le {n m more : Int} (le : n / unity ≤ m / unity + more) :
    n < m + (more + 1) * unity := by
  have below : m / unity * unity ≤ m := Int.ediv_mul_le m unity_pos.ne'
  calc n < (n / unity + 1) * unity := Int.lt_ediv_add_one_mul_self n unity_pos
    _ ≤ (m / unity + more + 1) * unity := mul_le_mul_of_nonneg_right (by omega) unity_pos.le
    _ = m / unity * unity + (more + 1) * unity := by ring
    _ ≤ m + (more + 1) * unity := by omega

/-- The sum of a finite number with one half is finite. -/
theorem add_half (finite : x.isFinite = true) :
    (x.add half).isFinite = true ∧
      (x.add half).signedUnits = nearestUnits (x.signedUnits + half.signedUnits) := by
  apply add_of_finite finite rfl
  have floors : halfUp x.signedUnits ≤ halfUpRounded x.signedUnits + 0 ∧
      halfUpRounded x.signedUnits ≤ halfUp x.signedUnits + 1 := by
    obtain ⟨kept, raised⟩ := halfUpRounded_eq finite
    by_cases overshoots : Overshoots x.value
    · have := raised overshoots
      omega
    · have := kept overshoots
      omega
  have lower := lt_of_ediv_le floors.1
  have upper := lt_of_ediv_le floors.2
  have magnitude := units_le_greatest finite
  rw [← natAbs_signedUnits] at magnitude
  rw [half_signedUnits, unity_eq_two_pow] at lower upper
  rw [half_signedUnits, beyond]
  omega

/-- The floor of the sum with one half, the sum being rounded first. -/
def round (x : Binary64) : Binary64 :=
  ofInt (x.add half).floorInt

theorem checkedInteger_of_finite (operation : Binary64 → Int) (finite : x.isFinite = true) :
    checkedInteger operation x = .ok (operation x) := by
  cases x with
  | nan => cases finite
  | infinity sign => cases finite
  | finite negative significand scale canonical => rfl

theorem round_value (finite : x.isFinite = true) :
    x.round.value = halfUpRounded x.signedUnits := by
  obtain ⟨finiteSum, sum⟩ := add_half finite
  rw [value_eq_iff, round, (floor_exact finiteSum).2, floorInt_eq, sum, halfUpRounded]

theorem floor_value_add_half (x : Binary64) : ⌊x.value + 1 / 2⌋ = halfUp x.signedUnits := by
  have nonzero : (unity : ℚ) ≠ 0 := by exact_mod_cast unity_pos.ne'
  have halved : (1 / 2 : ℚ) = half.signedUnits / unity := by
    rw [eq_div_iff nonzero, ← two_mul_half]
    push_cast
    ring
  rw [value, halved, ← add_div, ← Int.cast_add, floor_div_unity, halfUp]

theorem round_value_le (finite : x.isFinite = true) (other : y.isFinite = true)
    (le : x.value ≤ y.value) : x.round.value ≤ y.round.value := by
  have sums : x.signedUnits + half.signedUnits ≤ y.signedUnits + half.signedUnits :=
    Int.add_le_add_right (value_le_iff.mp le) _
  rw [round_value finite, round_value other, Int.cast_le]
  exact Int.ediv_le_ediv unity_pos (nearestUnits_le sums)

end Round

end Binary64

namespace Standard

open Binary64

/-- The sum with one half never leaves the range, so the builtin has an integer to give. -/
theorem rounded_of_finite {x : Binary64} (finite : x.isFinite = true) :
    rounded x = .ok (x.add half).floorInt :=
  checkedInteger_of_finite _ (add_half finite).1

theorem exists_round {σ : Type} (draw : σ → Binary64 × σ) :
    ∃ builtin, (builtins draw).get? "round" = some builtin ∧
      ∀ x state, x.isFinite = true → builtin.run [x] state = (.ok x.round, state) := by
  refine ⟨_, rfl, ?_⟩
  intro x state finite
  simp only [integral, Builtin.unary, Builtin.guarded, finite, if_true, rounded_of_finite finite,
    Except.map, Builtin.shielded, Binary64.round]

/-- The builtin rounds half up, but for the values that overshoot: for these its result is one too
great, for all others it is the floor of the exact sum with one half. So every integer is kept that
does not overshoot. In any case the order of two numbers is the order of their results. -/
theorem round_half_up_but_overshooting {σ : Type} (draw : σ → Binary64 × σ) (state : σ)
    (x : Binary64) (finite : x.isFinite = true) :
    (∃ builtin, (builtins draw).get? "round" = some builtin ∧
      builtin.run [x] state = (.ok x.round, state)) ∧
      x.round.isFinite = true ∧
      (x.round.value = ⌊x.value + 1 / 2⌋ ↔ ¬Overshoots x.value) ∧
      (Overshoots x.value → x.round.value = ⌊x.value + 1 / 2⌋ + 1) ∧
      (∀ n : Int, x.value = n → (x.round.equal x = true ↔ ¬Overshoots x.value)) ∧
      ∀ y : Binary64, y.isFinite = true → x.value ≤ y.value → x.round.value ≤ y.round.value := by
  obtain ⟨builtin, given, computes⟩ := exists_round draw
  have rounded : x.round.isFinite = true := (floor_exact (add_half finite).1).1
  obtain ⟨kept, raised⟩ := halfUpRounded_eq finite
  have overshot : Overshoots x.value → x.round.value = ⌊x.value + 1 / 2⌋ + 1 := by
    intro overshoots
    rw [round_value finite, raised overshoots, floor_value_add_half, Int.cast_add, Int.cast_one]
  have halfUp : x.round.value = ⌊x.value + 1 / 2⌋ ↔ ¬Overshoots x.value := by
    refine ⟨fun same overshoots => ?_, fun other => ?_⟩
    · have := overshot overshoots
      linarith
    · rw [round_value finite, kept other, floor_value_add_half]
  refine ⟨⟨builtin, given, computes x state finite⟩, rounded, halfUp, overshot,
    fun n integer => ?_, fun y other le => round_value_le finite other le⟩
  have floor : ⌊(n : ℚ) + 1 / 2⌋ = n := by
    rw [Int.floor_intCast_add]
    norm_num
  rw [equal_iff_value_eq rounded finite, ← halfUp, integer, floor]

/-- Minus five halves. -/
def negativeTie : Binary64 :=
  .finite true (5 * 2 ^ 50) 1023 (by decide)

/-- Minus the first integer that has no halves beyond it. -/
def lastNegative : Binary64 :=
  .finite true (2 ^ 52) 1074 (by decide)

/-- Half way between two negative integers the greater one is taken, and an even integer without
halves beyond it is kept. -/
theorem negative_tie_rounded_up :
    (negativeTie.isFinite = true ∧ ¬Overshoots negativeTie.value ∧
      negativeTie.round.value = (-2 : Int)) ∧
    (lastNegative.isFinite = true ∧ lastNegative.value = (-2 ^ 52 : Int) ∧
      lastNegative.round.equal lastNegative = true) ∧
    lastNegative.value ≤ negativeTie.value ∧
      lastNegative.round.value ≤ negativeTie.round.value := by
  let draw : Unit → Binary64 × Unit := fun state => (.zero false, state)
  obtain ⟨-, -, tie, -⟩ := round_half_up_but_overshooting draw () negativeTie rfl
  obtain ⟨-, -, -, -, kept, order⟩ := round_half_up_but_overshooting draw () lastNegative rfl
  have regular : ¬Overshoots negativeTie.value := by
    rw [negativeTie, overshoots_iff]
    decide
  have even : ¬Overshoots lastNegative.value := by
    rw [lastNegative, overshoots_iff]
    decide
  have floor : ⌊negativeTie.value + 1 / 2⌋ = -2 := by
    rw [floor_value_add_half]
    decide +kernel
  have integer : lastNegative.value = (-2 ^ 52 : Int) := value_eq_iff.mpr (by decide +kernel)
  have below : lastNegative.value ≤ negativeTie.value := value_le_iff.mpr (by decide +kernel)
  exact ⟨⟨rfl, regular, floor ▸ tie.mpr regular⟩, ⟨rfl, integer, (kept _ integer).mpr even⟩,
    below, order negativeTie rfl below⟩

/-- The greatest number below one half. -/
def belowHalf : Binary64 :=
  .finite false (2 ^ 53 - 1) 1020 (by decide)

/-- The first odd integer that has no halves beside it. -/
def oddInteger : Binary64 :=
  .finite false (2 ^ 52 + 1) 1074 (by decide)

/-- Just below one half is rounded to one instead of zero, and an odd integer to the next one
instead of itself. -/
theorem half_up_overshot :
    (∃ builtin, (builtins fun state : Unit => (.zero false, state)).get? "round" = some builtin ∧
      builtin.run [belowHalf] () = (.ok (.ofInt 1), ()) ∧
      builtin.run [oddInteger] () = (.ok (.ofInt (2 ^ 52 + 2)), ())) ∧
    (belowHalf.isFinite = true ∧ ⌊belowHalf.value + 1 / 2⌋ = 0 ∧ belowHalf.round = .ofInt 1 ∧
      belowHalf.round.value = 1) ∧
    (oddInteger.isFinite = true ∧ oddInteger.value = (2 ^ 52 + 1 : Int) ∧
      oddInteger.round = .ofInt (2 ^ 52 + 2) ∧ oddInteger.round.equal oddInteger = false) ∧
    ¬∀ x : Binary64, x.isFinite = true → x.round.value = ⌊x.value + 1 / 2⌋ := by
  have below : belowHalf.value = 1 / 2 - 1 / 2 ^ 54 :=
    value_eq_below_half_iff.mpr (by decide +kernel)
  have floor : ⌊belowHalf.value + 1 / 2⌋ = 0 := by
    rw [below]
    norm_num
  have one : belowHalf.round.value = 1 := by
    exact_mod_cast (value_eq_iff (n := 1)).mpr (by decide +kernel)
  have up : belowHalf.round = .ofInt 1 := by decide +kernel
  have next : oddInteger.round = .ofInt (2 ^ 52 + 2) := by decide +kernel
  obtain ⟨builtin, given, computes⟩ := exists_round fun state : Unit => (.zero false, state)
  refine ⟨⟨builtin, given, up ▸ computes belowHalf () rfl, next ▸ computes oddInteger () rfl⟩,
    ⟨rfl, floor, up, one⟩, ⟨rfl, value_eq_iff.mpr (by decide +kernel), next, by decide +kernel⟩, ?_⟩
  intro halfUp
  have zero := halfUp belowHalf rfl
  rw [floor, one] at zero
  norm_num at zero

end Standard

end Calculator

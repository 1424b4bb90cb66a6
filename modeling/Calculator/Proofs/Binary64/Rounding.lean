import Mathlib.Algebra.Order.Floor.Semifield
import Mathlib.Data.Nat.Log
import Mathlib.Data.Rat.Floor
import Mathlib.Tactic.FieldSimp
import Mathlib.Tactic.Linarith
import Mathlib.Tactic.Positivity
import Calculator.Binary64.Rounding

namespace Calculator.Binary64

/-- The first power of two beyond all finite numbers, in units. -/
def beyond : Nat := 2 ^ 2098

theorem two_pow_le {exponent other : Nat} (le : exponent ≤ other) : 2 ^ exponent ≤ 2 ^ other :=
  Nat.pow_le_pow_right (by decide) le

theorem beyond_eq : beyond = 2 ^ 53 * 2 ^ 2045 := by
  rw [beyond, ← pow_add]

/-- How far a number lies from zero, in units. -/
def reach : Binary64 → Nat
  | .nan => 0
  | .infinity _ => beyond
  | .finite _ significand scale _ => significand * 2 ^ scale

@[simp] theorem reach_withSign (negative : Bool) (x : Binary64) :
    (x.withSign negative).reach = x.reach := by
  cases x <;> rfl

@[simp] theorem withSign_withSign (negative other : Bool) (x : Binary64) :
    (x.withSign other).withSign negative = x.withSign negative := by
  cases x <;> rfl

theorem isNaN_of_isFinite {x : Binary64} (finite : x.isFinite = true) : x.isNaN = false := by
  cases x with
  | nan => cases finite
  | infinity negative => rfl
  | finite negative significand scale canonical => rfl

section Canonical

variable {significand scale other otherScale : Nat}

theorem Canonical.lt_beyond (canonical : Canonical significand scale) :
    significand * 2 ^ scale < beyond := by
  obtain ⟨narrow, low, -⟩ := canonical
  calc significand * 2 ^ scale
      < 2 ^ 53 * 2 ^ scale := Nat.mul_lt_mul_of_pos_right narrow (Nat.two_pow_pos scale)
    _ ≤ 2 ^ 53 * 2 ^ 2045 := Nat.mul_le_mul_left _ (two_pow_le low)
    _ = beyond := beyond_eq.symm

theorem Canonical.wide (canonical : Canonical significand scale) (scaled : scale ≠ 0) :
    2 ^ 52 ≤ significand := by
  by_contra small
  exact scaled (canonical.2.2 (by omega))

/-- A significand of full width at a greater scale outweighs every significand at a smaller one. -/
theorem mul_two_pow_le (narrow : significand ≤ 2 ^ 53) (wide : 2 ^ 52 ≤ other)
    (greater : scale < otherScale) : significand * 2 ^ scale ≤ other * 2 ^ otherScale := by
  calc significand * 2 ^ scale
      ≤ 2 ^ 53 * 2 ^ scale := Nat.mul_le_mul_right _ narrow
    _ = 2 ^ 52 * 2 ^ (scale + 1) := by ring
    _ ≤ 2 ^ 52 * 2 ^ otherScale := Nat.mul_le_mul_left _ (two_pow_le greater)
    _ ≤ other * 2 ^ otherScale := Nat.mul_le_mul_right _ wide

theorem Canonical.scale_le (canonical : Canonical significand scale)
    (otherCanonical : Canonical other otherScale)
    (same : significand * 2 ^ scale = other * 2 ^ otherScale) : otherScale ≤ scale := by
  by_contra greater
  have wide : 2 ^ 52 ≤ other := otherCanonical.wide (by omega)
  have narrow : significand + 1 ≤ 2 ^ 53 := canonical.1
  have outweighed := mul_two_pow_le narrow wide (by omega : scale < otherScale)
  have positive := Nat.two_pow_pos scale
  rw [← same, Nat.add_mul] at outweighed
  omega

/-- The form of a magnitude is unique. -/
theorem Canonical.unique (canonical : Canonical significand scale)
    (otherCanonical : Canonical other otherScale)
    (same : significand * 2 ^ scale = other * 2 ^ otherScale) :
    significand = other ∧ scale = otherScale := by
  obtain rfl : scale = otherScale :=
    Nat.le_antisymm (otherCanonical.scale_le canonical same.symm)
      (canonical.scale_le otherCanonical same)
  exact ⟨Nat.eq_of_mul_eq_mul_right (Nat.two_pow_pos scale) same, rfl⟩

end Canonical

theorem withSign_eq_of_reach_eq {x y : Binary64} (xNumber : x.isNaN = false)
    (yNumber : y.isNaN = false) (same : x.reach = y.reach) (negative : Bool) :
    x.withSign negative = y.withSign negative := by
  cases x with
  | nan => cases xNumber
  | infinity sign =>
    cases y with
    | nan => cases yNumber
    | infinity other => rfl
    | finite other significand scale canonical => exact absurd same canonical.lt_beyond.ne'
  | finite sign significand scale canonical =>
    cases y with
    | nan => cases yNumber
    | infinity other => exact absurd same canonical.lt_beyond.ne
    | finite other otherSignificand otherScale otherCanonical =>
      obtain ⟨rfl, rfl⟩ := canonical.unique otherCanonical same
      rfl

theorem less_withSign_false {x y : Binary64} (xNumber : x.isNaN = false)
    (yNumber : y.isNaN = false) :
    (x.withSign false).less (y.withSign false) = decide (x.reach < y.reach) := by
  cases x with
  | nan => cases xNumber
  | infinity sign =>
    cases y with
    | nan => cases yNumber
    | infinity other => simp [withSign, less, reach]
    | finite other significand scale canonical =>
      simp [withSign, less, reach, canonical.lt_beyond.not_gt]
  | finite sign significand scale canonical =>
    cases y with
    | nan => cases yNumber
    | infinity other => simp [withSign, less, reach, canonical.lt_beyond]
    | finite other otherSignificand otherScale otherCanonical =>
      simp only [withSign, less, reach, signedUnits, isNegative, units, Bool.false_eq_true,
        if_false, Nat.cast_lt]
      rfl

section Nearest

variable {numerator denominator other otherDenominator : Nat}

theorem quotient_eq (numerator : Nat) (positive : 0 < denominator) :
    (numerator : ℚ) / denominator =
      (numerator / denominator : Nat) + ((numerator % denominator : Nat) : ℚ) / denominator := by
  have bound : (denominator : ℚ) ≠ 0 := by exact_mod_cast positive.ne'
  have whole : (denominator * (numerator / denominator : Nat) +
      (numerator % denominator : Nat) : ℚ) = numerator := by
    exact_mod_cast Nat.div_add_mod numerator denominator
  rw [← whole]
  field_simp

private theorem half_le_iff (positive : 0 < denominator) (remainder : Nat) :
    1 / 2 ≤ (remainder : ℚ) / denominator ↔ denominator ≤ 2 * remainder := by
  have bound : (0 : ℚ) < denominator := by exact_mod_cast positive
  rw [div_le_div_iff₀ (by norm_num) bound, one_mul, mul_comm]
  exact_mod_cast Iff.rfl

private theorem eq_half_iff (positive : 0 < denominator) (remainder : Nat) :
    (remainder : ℚ) / denominator = 1 / 2 ↔ denominator = 2 * remainder := by
  have bound : (denominator : ℚ) ≠ 0 := by exact_mod_cast positive.ne'
  rw [div_eq_div_iff bound (by norm_num), one_mul, mul_comm, eq_comm]
  exact_mod_cast Iff.rfl

/-- The nearest integer is at most one half away, and an integer that is one half away is even. -/
theorem nearestQuotient_spec (numerator : Nat) (positive : 0 < denominator) :
    |(nearestQuotient numerator denominator : ℚ) - numerator / denominator| ≤ 1 / 2 ∧
      (|(nearestQuotient numerator denominator : ℚ) - numerator / denominator| = 1 / 2 →
        nearestQuotient numerator denominator % 2 = 0) := by
  have half := half_le_iff positive (numerator % denominator)
  have tie := eq_half_iff positive (numerator % denominator)
  have less : ((numerator % denominator : Nat) : ℚ) / denominator < 1 := by
    rw [div_lt_one (by exact_mod_cast positive)]
    exact_mod_cast Nat.mod_lt numerator positive
  have least : (0 : ℚ) ≤ ((numerator % denominator : Nat) : ℚ) / denominator := by positivity
  rw [quotient_eq numerator positive]
  simp only [nearestQuotient]
  generalize ((numerator % denominator : Nat) : ℚ) / denominator = part at half tie less least ⊢
  generalize numerator % denominator = remainder at half tie ⊢
  generalize numerator / denominator = quotient
  split_ifs with up
  · have distance : ((quotient + 1 : Nat) : ℚ) - (quotient + part) = 1 - part := by
      push_cast
      ring
    have large : 1 / 2 ≤ part := half.mpr (by omega)
    rw [distance, abs_of_nonneg (by linarith)]
    refine ⟨by linarith, fun away => ?_⟩
    have halfway := tie.mp (by linarith)
    omega
  · have distance : (quotient : ℚ) - (quotient + part) = -part := by ring
    have small : part ≤ 1 / 2 := by
      by_contra large
      have above := half.mp (by linarith)
      have halfway := mt tie.mpr (by linarith)
      omega
    rw [distance, abs_neg, abs_of_nonneg least]
    refine ⟨small, fun away => ?_⟩
    have halfway := tie.mp away
    omega

theorem nearestQuotient_le (positive : 0 < denominator) (otherPositive : 0 < otherDenominator)
    (le : (numerator : ℚ) / denominator ≤ other / otherDenominator) :
    nearestQuotient numerator denominator ≤ nearestQuotient other otherDenominator := by
  obtain ⟨near, tie⟩ := nearestQuotient_spec numerator positive
  obtain ⟨otherNear, otherTie⟩ := nearestQuotient_spec other otherPositive
  generalize nearestQuotient numerator denominator = n at near tie ⊢
  generalize nearestQuotient other otherDenominator = m at otherNear otherTie ⊢
  by_contra greater
  have apart : (m : ℚ) + 1 ≤ n := by exact_mod_cast not_le.mp greater
  rw [abs_le] at near otherNear
  -- Both quotients lie halfway between the two integers, so both integers would be even.
  have half : (n : ℚ) - numerator / denominator = 1 / 2 := by linarith
  have otherHalf : (m : ℚ) - other / otherDenominator = -(1 / 2) := by linarith
  have next : n = m + 1 := by
    have : (n : ℚ) = m + 1 := by linarith
    exact_mod_cast this
  have even := tie (by rw [half]; norm_num)
  have otherEven := otherTie (by rw [otherHalf]; norm_num)
  omega

/-- Rounding to integers depends on the quotient only. -/
theorem nearestQuotient_congr (positive : 0 < denominator) (otherPositive : 0 < otherDenominator)
    (same : (numerator : ℚ) / denominator = other / otherDenominator) :
    nearestQuotient numerator denominator = nearestQuotient other otherDenominator :=
  Nat.le_antisymm (nearestQuotient_le positive otherPositive same.le)
    (nearestQuotient_le otherPositive positive same.ge)

theorem nearestQuotient_exact (n : Nat) (positive : 0 < denominator) :
    nearestQuotient (n * denominator) denominator = n := by
  simp [nearestQuotient, Nat.mul_div_cancel n positive, positive.ne']

theorem div_le_nearestQuotient (numerator denominator : Nat) :
    numerator / denominator ≤ nearestQuotient numerator denominator := by
  simp only [nearestQuotient]
  split <;> omega

theorem nearestQuotient_le_div_succ (numerator denominator : Nat) :
    nearestQuotient numerator denominator ≤ numerator / denominator + 1 := by
  simp only [nearestQuotient]
  split <;> omega

theorem div_le_div_of_quotient_le (le : (numerator : ℚ) / denominator ≤ other / otherDenominator) :
    numerator / denominator ≤ other / otherDenominator := by
  rw [← Nat.floor_div_eq_div (K := ℚ), ← Nat.floor_div_eq_div (K := ℚ)]
  exact Nat.floor_mono le

end Nearest

section Units

variable {numerator denominator other otherDenominator : Nat}

/-- The scale at which a quotient of units is rounded. -/
def unitScale (numerator denominator : Nat) : Nat :=
  (numerator / denominator).log2 - 52

/-- The significand that a quotient of units is rounded to. -/
def unitSignificand (numerator denominator : Nat) : Nat :=
  nearestQuotient numerator (denominator * 2 ^ unitScale numerator denominator)

theorem ofUnits_eq (negative : Bool) (numerator denominator : Nat) :
    ofUnits negative numerator denominator =
      ofSignificand negative (unitSignificand numerator denominator)
        (unitScale numerator denominator) :=
  rfl

theorem unitSignificand_le (numerator denominator : Nat) :
    unitSignificand numerator denominator ≤ 2 ^ 53 := by
  have bound : numerator / (denominator * 2 ^ unitScale numerator denominator) < 2 ^ 53 := by
    rw [← Nat.div_div_eq_div_mul, Nat.div_lt_iff_lt_mul (Nat.two_pow_pos _), ← pow_add]
    by_cases zero : numerator / denominator = 0
    · rw [zero]
      exact Nat.two_pow_pos _
    · rw [← Nat.log2_lt zero, unitScale]
      omega
  exact (nearestQuotient_le_div_succ _ _).trans bound

theorem le_unitSignificand (scaled : unitScale numerator denominator ≠ 0) :
    2 ^ 52 ≤ unitSignificand numerator denominator := by
  refine le_trans ?_ (div_le_nearestQuotient _ _)
  rw [← Nat.div_div_eq_div_mul, Nat.le_div_iff_mul_le (Nat.two_pow_pos _), ← pow_add]
  have large : 52 < (numerator / denominator).log2 := by
    unfold unitScale at scaled
    omega
  have nonzero : numerator / denominator ≠ 0 := by
    rintro zero
    rw [zero, Nat.log2_zero] at large
    omega
  have exponent : 52 + unitScale numerator denominator = (numerator / denominator).log2 := by
    unfold unitScale
    omega
  rw [exponent]
  exact Nat.log2_self_le nonzero

private theorem reach_capped (negative : Bool) {significand scale : Nat}
    (narrow : significand < 2 ^ 53) (full : scale ≠ 0 → 2 ^ 52 ≤ significand) :
    (if canonical : Canonical significand scale then finite negative significand scale canonical
      else infinity negative).reach = min beyond (significand * 2 ^ scale) := by
  by_cases great : 2045 < scale
  · rw [dif_neg (fun canonical => by have := canonical.2.1; omega), beyond_eq]
    refine Eq.trans ?_ (Nat.min_eq_left (mul_two_pow_le le_rfl (full (by omega)) great)).symm
    exact beyond_eq
  · have canonical : Canonical significand scale := by
      refine ⟨narrow, by omega, fun small => ?_⟩
      by_contra scaled
      have := full scaled
      omega
    rw [dif_pos canonical]
    exact (Nat.min_eq_right canonical.lt_beyond.le).symm

theorem reach_ofSignificand (negative : Bool) {significand scale : Nat}
    (narrow : significand ≤ 2 ^ 53) (full : scale ≠ 0 → 2 ^ 52 ≤ significand) :
    (ofSignificand negative significand scale).reach = min beyond (significand * 2 ^ scale) := by
  by_cases carry : significand = 2 ^ 53
  · have moved : 2 ^ 53 * 2 ^ scale = 2 ^ 52 * 2 ^ (scale + 1) := by ring
    simp only [ofSignificand, carry, if_true]
    rw [moved]
    exact reach_capped negative (by decide) (fun _ => le_rfl)
  · simp only [ofSignificand, carry, if_false]
    exact reach_capped negative (by omega) full

theorem reach_ofUnits (negative : Bool) (numerator denominator : Nat) :
    (ofUnits negative numerator denominator).reach =
      min beyond (unitSignificand numerator denominator * 2 ^ unitScale numerator denominator) :=
  reach_ofSignificand negative (unitSignificand_le _ _) le_unitSignificand

theorem withSign_ofUnits (negative other : Bool) (numerator denominator : Nat) :
    (ofUnits negative numerator denominator).withSign other =
      ofUnits other numerator denominator := by
  simp only [ofUnits_eq, ofSignificand]
  split_ifs <;> rfl

theorem isNaN_ofUnits (negative : Bool) (numerator denominator : Nat) :
    (ofUnits negative numerator denominator).isNaN = false := by
  simp only [ofUnits_eq, ofSignificand]
  split_ifs <;> rfl

/-- Rounding keeps the order of magnitudes. -/
theorem reach_ofUnits_le (negative otherNegative : Bool) (positive : 0 < denominator)
    (otherPositive : 0 < otherDenominator)
    (le : (numerator : ℚ) / denominator ≤ other / otherDenominator) :
    (ofUnits negative numerator denominator).reach ≤
      (ofUnits otherNegative other otherDenominator).reach := by
  rw [reach_ofUnits, reach_ofUnits]
  refine min_le_min_left beyond ?_
  have scales : unitScale numerator denominator ≤ unitScale other otherDenominator := by
    unfold unitScale
    rw [Nat.log2_eq_log_two, Nat.log2_eq_log_two]
    exact Nat.sub_le_sub_right (Nat.log_mono_right (div_le_div_of_quotient_le le)) 52
  -- Different scales decide by themselves, since a significand at a scale has full width.
  rcases scales.lt_or_eq with less | same
  · exact mul_two_pow_le (unitSignificand_le _ _) (le_unitSignificand (by omega)) less
  · rw [same]
    refine Nat.mul_le_mul_right _ ?_
    unfold unitSignificand
    rw [same]
    have power := Nat.two_pow_pos (unitScale other otherDenominator)
    refine nearestQuotient_le (Nat.mul_pos positive power) (Nat.mul_pos otherPositive power) ?_
    push_cast
    rw [← div_div, ← div_div]
    gcongr

theorem ofUnits_congr (negative : Bool) (positive : 0 < denominator)
    (otherPositive : 0 < otherDenominator)
    (same : (numerator : ℚ) / denominator = other / otherDenominator) :
    ofUnits negative numerator denominator = ofUnits negative other otherDenominator := by
  have scales : unitScale numerator denominator = unitScale other otherDenominator := by
    unfold unitScale
    rw [Nat.le_antisymm (div_le_div_of_quotient_le same.le) (div_le_div_of_quotient_le same.ge)]
  have significands : unitSignificand numerator denominator =
      unitSignificand other otherDenominator := by
    unfold unitSignificand
    rw [scales]
    have power := Nat.two_pow_pos (unitScale other otherDenominator)
    refine nearestQuotient_congr (Nat.mul_pos positive power) (Nat.mul_pos otherPositive power) ?_
    push_cast
    rw [← div_div, ← div_div, same]
  rw [ofUnits_eq, ofUnits_eq, scales, significands]

/-- The scale of a finite number is the one at which its magnitude is rounded. -/
theorem Canonical.log2_eq {significand scale : Nat} (canonical : Canonical significand scale) :
    (significand * 2 ^ scale).log2 - 52 = scale := by
  obtain ⟨narrow, -, full⟩ := canonical
  by_cases small : significand < 2 ^ 52
  · rw [full small]
    by_cases zero : significand = 0
    · simp [zero]
    · have : significand.log2 < 52 := (Nat.log2_lt zero).mpr small
      simp only [pow_zero, mul_one]
      omega
  · have nonzero : significand * 2 ^ scale ≠ 0 :=
      Nat.mul_ne_zero (by omega) (Nat.two_pow_pos scale).ne'
    have exponent : (significand * 2 ^ scale).log2 = 52 + scale := by
      rw [Nat.log2_eq_iff nonzero, show 52 + scale + 1 = 53 + scale by omega, pow_add, pow_add]
      exact ⟨Nat.mul_le_mul_right _ (by omega),
        Nat.mul_lt_mul_of_pos_right narrow (Nat.two_pow_pos scale)⟩
    omega

/-- The scale of a quotient is that of the number below it. -/
theorem unitScale_of_div_eq {significand scale : Nat} (canonical : Canonical significand scale)
    (below : numerator / (denominator * 2 ^ scale) = significand) :
    unitScale numerator denominator = scale := by
  have power := Nat.two_pow_pos scale
  rw [← Nat.div_div_eq_div_mul, Nat.div_eq_iff power] at below
  rw [unitScale]
  by_cases unscaled : scale = 0
  · subst unscaled
    have same : numerator / denominator = significand * 2 ^ 0 := by omega
    rw [same, canonical.log2_eq]
  · have narrow := canonical.1
    have wide := canonical.wide unscaled
    have low : 2 ^ (52 + scale) ≤ numerator / denominator := by
      rw [pow_add]
      exact (Nat.mul_le_mul_right _ wide).trans below.1
    have high : numerator / denominator < 2 ^ (52 + scale + 1) := by
      have next : (significand + 1) * 2 ^ scale ≤ 2 ^ 53 * 2 ^ scale :=
        Nat.mul_le_mul_right _ narrow
      rw [Nat.add_right_comm, pow_add]
      rw [Nat.add_mul] at next
      omega
    have exponent : (numerator / denominator).log2 = 52 + scale :=
      (Nat.log2_eq_iff (by have := Nat.two_pow_pos (52 + scale); omega)).mpr ⟨low, high⟩
    omega

/-- A finite number is its own rounding. -/
theorem ofUnits_exact {x : Binary64} (finite : x.isFinite = true) (negative : Bool)
    (positive : 0 < denominator) :
    ofUnits negative (x.units * denominator) denominator = x.withSign negative := by
  cases x with
  | nan => cases finite
  | infinity sign => cases finite
  | finite sign significand scale canonical =>
    have scaled : unitScale (significand * 2 ^ scale * denominator) denominator = scale := by
      rw [unitScale, Nat.mul_div_cancel _ positive, canonical.log2_eq]
    have exact : unitSignificand (significand * 2 ^ scale * denominator) denominator =
        significand := by
      rw [unitSignificand, scaled, Nat.mul_assoc, Nat.mul_comm (2 ^ scale)]
      exact nearestQuotient_exact significand (Nat.mul_pos positive (Nat.two_pow_pos scale))
    have carry : significand ≠ 2 ^ 53 := canonical.1.ne
    rw [units, ofUnits_eq, scaled, exact]
    simp only [ofSignificand, carry, if_false, dif_pos canonical, withSign]

end Units

section Decimals

variable {digits other : Nat} {exponent otherExponent : Int}

theorem ofDecimal_eq (digits : Nat) (exponent : Int) :
    ∃ numerator denominator : Nat, 0 < denominator ∧
      (numerator : ℚ) / denominator = digits * 10 ^ exponent * 2 ^ unitExponent ∧
        ofDecimal digits exponent = ofUnits false numerator denominator := by
  cases exponent with
  | ofNat places =>
    refine ⟨digits * 10 ^ places * 2 ^ unitExponent, 1, Nat.one_pos, ?_, ?_⟩
    · push_cast
      simp
    · simp only [ofDecimal, ofQuotient]
  | negSucc places =>
    refine ⟨digits * 2 ^ unitExponent, 10 ^ (places + 1), by positivity, ?_, ?_⟩
    · push_cast
      rw [zpow_negSucc]
      ring
    · simp only [ofDecimal, ofQuotient]

@[simp] theorem withSign_ofDecimal (digits : Nat) (exponent : Int) :
    (ofDecimal digits exponent).withSign false = ofDecimal digits exponent := by
  obtain ⟨numerator, denominator, -, -, rounded⟩ := ofDecimal_eq digits exponent
  rw [rounded, withSign_ofUnits]

@[simp] theorem isNaN_ofDecimal (digits : Nat) (exponent : Int) :
    (ofDecimal digits exponent).isNaN = false := by
  obtain ⟨numerator, denominator, -, -, rounded⟩ := ofDecimal_eq digits exponent
  rw [rounded, isNaN_ofUnits]

theorem reach_ofDecimal_le
    (le : (digits : ℚ) * 10 ^ exponent ≤ other * 10 ^ otherExponent) :
    (ofDecimal digits exponent).reach ≤ (ofDecimal other otherExponent).reach := by
  obtain ⟨numerator, denominator, positive, quotient, rounded⟩ := ofDecimal_eq digits exponent
  obtain ⟨otherNumerator, otherDenominator, otherPositive, otherQuotient, otherRounded⟩ :=
    ofDecimal_eq other otherExponent
  rw [rounded, otherRounded]
  refine reach_ofUnits_le false false positive otherPositive ?_
  rw [quotient, otherQuotient]
  gcongr

theorem ofDecimal_congr
    (same : (digits : ℚ) * 10 ^ exponent = other * 10 ^ otherExponent) :
    ofDecimal digits exponent = ofDecimal other otherExponent := by
  obtain ⟨numerator, denominator, positive, quotient, rounded⟩ := ofDecimal_eq digits exponent
  obtain ⟨otherNumerator, otherDenominator, otherPositive, otherQuotient, otherRounded⟩ :=
    ofDecimal_eq other otherExponent
  rw [rounded, otherRounded]
  refine ofUnits_congr false positive otherPositive ?_
  rw [quotient, otherQuotient, same]

end Decimals

end Calculator.Binary64

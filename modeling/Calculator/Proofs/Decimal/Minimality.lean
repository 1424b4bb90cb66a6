import Calculator.Proofs.Decimal.Shortest

/-!
The shortest decimal of a number is a shortest one: it has no zeros at its end, and no decimal that
reads as the same number has fewer digits. The search looks at the two neighbours of the number on
ever finer grids. Reading is monotone, so a neighbour reads back as soon as anything on its grid
does; and numbers lie so far apart that a grid of seventeen digits has something to offer.
-/

namespace Calculator

namespace Binary64

section Room

variable {significand scale numerator denominator : Nat}

/-- Less than half a step above a number the number is the nearest one. -/
theorem ofUnits_of_lt_half (canonical : Canonical significand scale)
    (below : numerator / (denominator * 2 ^ scale) = significand)
    (near : 2 * (numerator % (denominator * 2 ^ scale)) < denominator * 2 ^ scale) :
    ofUnits false numerator denominator = .finite false significand scale canonical := by
  have carry : significand ≠ 2 ^ 53 := canonical.1.ne
  have rounded : unitSignificand numerator denominator = significand := by
    rw [unitSignificand, unitScale_of_div_eq canonical below, nearestQuotient, below, if_neg]
    omega
  rw [ofUnits_eq, rounded, unitScale_of_div_eq canonical below]
  simp only [ofSignificand, carry, if_false, dif_pos canonical]

/-- More than half a step above a number the next significand is the nearest one. -/
theorem ofUnits_of_half_lt (canonical : Canonical significand scale)
    (below : numerator / (denominator * 2 ^ scale) = significand)
    (far : denominator * 2 ^ scale < 2 * (numerator % (denominator * 2 ^ scale))) :
    ofUnits false numerator denominator = ofSignificand false (significand + 1) scale := by
  have rounded : unitSignificand numerator denominator = significand + 1 := by
    rw [unitSignificand, unitScale_of_div_eq canonical below, nearestQuotient, below,
      if_pos (.inl far)]
  rw [ofUnits_eq, rounded, unitScale_of_div_eq canonical below]

theorem ofUnits_above (canonical : Canonical significand scale) :
    ofUnits false ((100 * significand + 49) * 2 ^ scale) 100 =
      .finite false significand scale canonical := by
  have power := Nat.two_pow_pos scale
  apply ofUnits_of_lt_half canonical
  · rw [Nat.mul_div_mul_right _ _ power]
    omega
  · rw [Nat.mul_mod_mul_right, Nat.mul_add_mod]
    omega

theorem ofUnits_below (canonical : Canonical (significand + 1) scale)
    (beneath : Canonical significand scale) :
    ofUnits false ((100 * significand + 51) * 2 ^ scale) 100 =
      .finite false (significand + 1) scale canonical := by
  have power := Nat.two_pow_pos scale
  have carry : significand + 1 ≠ 2 ^ 53 := canonical.1.ne
  rw [ofUnits_of_half_lt beneath]
  · simp only [ofSignificand, carry, if_false, dif_pos canonical]
  · rw [Nat.mul_div_mul_right _ _ power]
    omega
  · rw [Nat.mul_mod_mul_right, Nat.mul_add_mod]
    omega

theorem ofUnits_below_power (canonical : Canonical (2 ^ 52) (scale + 1)) :
    ofUnits false ((5 * 2 ^ 52 - 1) * 2 ^ (scale + 1)) 5 =
      .finite false (2 ^ 52) (scale + 1) canonical := by
  have power := Nat.two_pow_pos scale
  have beneath : Canonical (2 ^ 53 - 1) scale := by
    have := canonical.2.1
    exact ⟨by decide, by omega, by omega⟩
  have moved : (5 * 2 ^ 52 - 1) * 2 ^ (scale + 1) = (5 * (2 ^ 53 - 1) + 3) * 2 ^ scale := by
    rw [pow_succ]
    omega
  rw [moved, ofUnits_of_half_lt beneath]
  · have carry : 2 ^ 53 - 1 + 1 = 2 ^ 53 := by decide
    simp only [ofSignificand, carry, if_true, dif_pos canonical]
  · rw [Nat.mul_div_mul_right _ _ power]
    decide
  · rw [Nat.mul_mod_mul_right, Nat.mul_add_mod]
    omega

/-- Numbers lie so far apart that an interval of more than a ten quadrillionth of a number reads as
that number. -/
theorem exists_room {x : Binary64} (finite : x.isFinite = true) (nonzero : x.isZero = false) :
    ∃ low lowDenominator high highDenominator : Nat, 0 < lowDenominator ∧ 0 < highDenominator ∧
      ofUnits false low lowDenominator = x.withSign false ∧
      ofUnits false high highDenominator = x.withSign false ∧
      (x.units : ℚ) / 10 ^ 16 < (high : ℚ) / highDenominator - low / lowDenominator := by
  cases x with
  | nan => cases finite
  | infinity sign => cases finite
  | finite sign significand scale canonical =>
    have some : significand ≠ 0 := by simpa [isZero] using nonzero
    have narrow : (significand : ℚ) < 2 ^ 53 := by exact_mod_cast canonical.1
    have power : (0 : ℚ) < 2 ^ scale := by positivity
    by_cases single : significand = 2 ^ 52 ∧ scale ≠ 0
    · obtain ⟨rfl, scaled⟩ := single
      obtain ⟨less, rfl⟩ := Nat.exists_eq_add_one_of_ne_zero scaled
      refine ⟨_, 5, _, 100, by decide, by decide, ofUnits_below_power canonical,
        ofUnits_above canonical, ?_⟩
      rw [units]
      push_cast
      nlinarith
    · obtain ⟨less, rfl⟩ := Nat.exists_eq_add_one_of_ne_zero some
      have beneath : Canonical less scale := by
        have := canonical.1
        have := canonical.2.2
        exact ⟨by omega, canonical.2.1, by omega⟩
      refine ⟨_, 100, _, 100, by decide, by decide, ofUnits_below canonical beneath,
        ofUnits_above canonical, ?_⟩
      rw [units]
      push_cast at narrow ⊢
      nlinarith

end Room

end Binary64

namespace Decimal

section Grids

variable {numerator denominator : Nat}

theorem scaleDown_pos (positive : 0 < denominator) (places : Int) :
    0 < (scaleDown numerator denominator places).2 := by
  cases places with
  | ofNat places => exact Nat.mul_pos positive (by positivity)
  | negSucc places => exact positive

theorem scaleDown_quotient (numerator denominator : Nat) (places : Int) :
    ((scaleDown numerator denominator places).1 : ℚ) / (scaleDown numerator denominator places).2 =
      numerator / denominator / 10 ^ places := by
  cases places with
  | ofNat places =>
    simp only [scaleDown]
    push_cast
    rw [div_div]
    rfl
  | negSucc places =>
    simp only [scaleDown, zpow_negSucc]
    push_cast
    rw [div_inv_eq_mul, mul_div_right_comm]

theorem scaleDown_le_iff (positive : 0 < denominator) (places : Int) :
    (scaleDown numerator denominator places).2 ≤ (scaleDown numerator denominator places).1 ↔
      (10 : ℚ) ^ places ≤ numerator / denominator := by
  have power : (0 : ℚ) < 10 ^ places := zpow_pos (by norm_num) _
  have below : (0 : ℚ) < (scaleDown numerator denominator places).2 := by
    exact_mod_cast scaleDown_pos positive places
  rw [← one_le_div₀ power, ← scaleDown_quotient, one_le_div₀ below, Nat.cast_le]

/-- The digits of the whole part of a quotient tell between which powers of ten it lies. -/
theorem digitCount_quotient (some : numerator / denominator ≠ 0) :
    (10 : ℚ) ^ ((digitCount (numerator / denominator) : Int) - 1) ≤ numerator / denominator ∧
      (numerator : ℚ) / denominator < 10 ^ (digitCount (numerator / denominator) : Int) := by
  obtain ⟨least, most⟩ := digitCount_bounds some
  have positive : 0 < digitCount (numerator / denominator) := Nat.length_toDigits_pos
  have floor : ((numerator / denominator : Nat) : ℚ) ≤ numerator / denominator := by
    rw [← Nat.floor_div_eq_div (K := ℚ)]
    exact Nat.floor_le (by positivity)
  have next : (numerator : ℚ) / denominator < ((numerator / denominator : Nat) : ℚ) + 1 := by
    rw [← Nat.floor_div_eq_div (K := ℚ)]
    exact Nat.lt_floor_add_one _
  constructor
  · refine le_trans ?_ floor
    rw [← Nat.cast_pred positive, zpow_natCast]
    exact_mod_cast least
  · refine next.trans_le ?_
    rw [zpow_natCast]
    exact_mod_cast most

/-- A quotient lies between a power of ten and the next one. -/
theorem leadingExponent_spec (numeratorPositive : 0 < numerator) (positive : 0 < denominator) :
    (10 : ℚ) ^ leadingExponent numerator denominator ≤ numerator / denominator ∧
      (numerator : ℚ) / denominator < 10 ^ (leadingExponent numerator denominator + 1) := by
  simp only [leadingExponent]
  split
  next large =>
    have bounds := digitCount_quotient (Nat.div_pos large positive).ne'
    rwa [sub_add_cancel]
  next small =>
    obtain ⟨low, high⟩ :=
      digitCount_quotient (Nat.div_pos (not_le.mp small).le numeratorPositive).ne'
    generalize digitCount (denominator / numerator) = count at low high ⊢
    have ratio : (0 : ℚ) < numerator / denominator := by positivity
    have above : (10 : ℚ) ^ (-(count : Int)) < numerator / denominator := by
      rw [zpow_neg, inv_lt_comm₀ (zpow_pos (by norm_num) _) ratio, inv_div]
      exact high
    have below : (numerator : ℚ) / denominator ≤ 10 ^ (-(count : Int) + 1) := by
      have turned : -(count : Int) + 1 = -((count : Int) - 1) := by omega
      rw [turned, zpow_neg, le_inv_comm₀ ratio (zpow_pos (by norm_num) _), inv_div]
      exact low
    split
    next reached =>
      refine ⟨(scaleDown_le_iff positive _).mp reached, below.trans_lt ?_⟩
      exact zpow_lt_zpow_right₀ (by norm_num) (by omega)
    next missed => exact ⟨above.le, not_le.mp (mt (scaleDown_le_iff positive _).mpr missed)⟩

/-- The digits of a number on a grid, rounded down. -/
def gridFloor (numerator denominator : Nat) (exponent : Int) : Nat :=
  (scaleDown numerator denominator exponent).1 / (scaleDown numerator denominator exponent).2

theorem gridFloor_spec (numerator denominator : Nat) (exponent : Int) :
    (gridFloor numerator denominator exponent : ℚ) * 10 ^ exponent ≤ numerator / denominator ∧
      (numerator : ℚ) / denominator <
        (gridFloor numerator denominator exponent + 1 : Nat) * 10 ^ exponent := by
  have power : (0 : ℚ) < 10 ^ exponent := zpow_pos (by norm_num) _
  have floor : gridFloor numerator denominator exponent =
      ⌊(numerator : ℚ) / denominator / 10 ^ exponent⌋₊ := by
    rw [← scaleDown_quotient, Nat.floor_div_eq_div, gridFloor]
  rw [← le_div_iff₀ power, ← div_lt_iff₀ power, floor]
  push_cast
  exact ⟨Nat.floor_le (by positivity), Nat.lt_floor_add_one _⟩

theorem neighbour?_cases (x : Binary64) (numerator denominator : Nat) (exponent : Int) :
    ∃ first second : Nat,
      (first = gridFloor numerator denominator exponent ∧ second = first + 1 ∨
        second = gridFloor numerator denominator exponent ∧ first = second + 1) ∧
      neighbour? x numerator denominator exponent =
        if (⟨first, exponent⟩ : Decimal).toBinary64 = x then some ⟨first, exponent⟩
        else if (⟨second, exponent⟩ : Decimal).toBinary64 = x then some ⟨second, exponent⟩
        else none := by
  simp only [neighbour?]
  split
  · exact ⟨_, _, .inr ⟨rfl, rfl⟩, rfl⟩
  · exact ⟨_, _, .inl ⟨rfl, rfl⟩, rfl⟩

theorem neighbour?_digits_le {x : Binary64} {exponent : Int} {decimal : Decimal}
    (found : neighbour? x numerator denominator exponent = some decimal) :
    decimal.digits ≤ gridFloor numerator denominator exponent + 1 := by
  obtain ⟨first, second, order, tried⟩ := neighbour?_cases x numerator denominator exponent
  rw [tried] at found
  split_ifs at found
  · obtain rfl := Option.some.inj found
    exact show first ≤ _ by omega
  · obtain rfl := Option.some.inj found
    exact show second ≤ _ by omega

theorem neighbour?_eq_none {x : Binary64} {exponent : Int}
    (missed : neighbour? x numerator denominator exponent = none) :
    (⟨gridFloor numerator denominator exponent, exponent⟩ : Decimal).toBinary64 ≠ x ∧
      (⟨gridFloor numerator denominator exponent + 1, exponent⟩ : Decimal).toBinary64 ≠ x := by
  obtain ⟨first, second, order, tried⟩ := neighbour?_cases x numerator denominator exponent
  rw [tried] at missed
  split_ifs at missed with firstReads secondReads
  obtain ⟨rfl, rfl⟩ | ⟨rfl, rfl⟩ := order
  · exact ⟨firstReads, secondReads⟩
  · exact ⟨secondReads, firstReads⟩

end Grids

/-- An interval that is no shorter than a step holds a multiple of it. -/
private theorem exists_multiple {low high step : ℚ} (positive : 0 < step) (nonneg : 0 ≤ high)
    (wide : step ≤ high - low) : ∃ count : Nat, low ≤ count * step ∧ count * step ≤ high := by
  have floor := Nat.floor_le (div_nonneg nonneg positive.le)
  have next := Nat.lt_floor_add_one (high / step)
  rw [le_div_iff₀ positive] at floor
  rw [div_lt_iff₀ positive] at next
  exact ⟨⌊high / step⌋₊, by linarith, floor⟩

section Reading

variable {x : Binary64} (finite : x.isFinite = true) {decimal : Decimal}

include finite

theorem toBinary64_eq_of_reach_eq (same : decimal.toBinary64.reach = x.reach) :
    decimal.toBinary64 = x.withSign false := by
  have own : decimal.toBinary64.withSign false = decimal.toBinary64 :=
    Binary64.withSign_ofDecimal _ _
  rw [← own]
  exact Binary64.withSign_eq_of_reach_eq (Binary64.isNaN_ofDecimal _ _)
    (Binary64.isNaN_of_isFinite finite) same false

/-- What lies between two decimals that read as a number reads as it too. -/
theorem toBinary64_between {low high : Decimal} (lowReads : low.toBinary64 = x.withSign false)
    (highReads : high.toBinary64 = x.withSign false) (above : low.value ≤ decimal.value)
    (below : decimal.value ≤ high.value) : decimal.toBinary64 = x.withSign false := by
  have least := reach_toBinary64_le above
  have most := reach_toBinary64_le below
  rw [lowReads, Binary64.reach_withSign] at least
  rw [highReads, Binary64.reach_withSign] at most
  exact toBinary64_eq_of_reach_eq finite (le_antisymm most least)

omit finite in
theorem exact_value (units : Nat) :
    (exact units).value = units / (2 ^ Binary64.unitExponent : Nat) := by
  rw [exact, value, zpow_neg, zpow_natCast, show (10 : ℚ) = 5 * 2 by norm_num, mul_pow]
  push_cast
  field_simp

/-- If anything on a grid reads as a number, so does one of its neighbours there. -/
theorem neighbour?_ne_none {digits : Nat} {exponent : Int}
    (reads : (⟨digits, exponent⟩ : Decimal).toBinary64 = x.withSign false) :
    neighbour? (x.withSign false) x.units (2 ^ Binary64.unitExponent) exponent ≠ none := by
  intro missed
  obtain ⟨notBelow, notAbove⟩ := neighbour?_eq_none missed
  obtain ⟨floor, next⟩ := gridFloor_spec x.units (2 ^ Binary64.unitExponent) exponent
  have own := exact_toBinary64 finite
  rw [← exact_value] at floor next
  have power : (0 : ℚ) < 10 ^ exponent := zpow_pos (by norm_num) _
  rcases le_or_gt digits (gridFloor x.units (2 ^ Binary64.unitExponent) exponent)
    with less | greater
  · refine notBelow (toBinary64_between finite reads own ?_ floor)
    exact mul_le_mul_of_nonneg_right (by exact_mod_cast less) power.le
  · refine notAbove (toBinary64_between finite own reads next.le ?_)
    exact mul_le_mul_of_nonneg_right (by exact_mod_cast greater) power.le

/-- Between two quotients of units that are rounded to a number decimals read as it. -/
theorem toBinary64_of_room {low lowDenominator high highDenominator : Nat}
    (lowPositive : 0 < lowDenominator) (highPositive : 0 < highDenominator)
    (lowReads : Binary64.ofUnits false low lowDenominator = x.withSign false)
    (highReads : Binary64.ofUnits false high highDenominator = x.withSign false)
    (above : (low : ℚ) / lowDenominator ≤ decimal.value * 2 ^ Binary64.unitExponent)
    (below : decimal.value * 2 ^ Binary64.unitExponent ≤ high / highDenominator) :
    decimal.toBinary64 = x.withSign false := by
  obtain ⟨numerator, denominator, positive, quotient, rounded⟩ :=
    Binary64.ofDecimal_eq decimal.digits decimal.exponent
  rw [value, ← quotient] at above below
  have least := Binary64.reach_ofUnits_le false false lowPositive positive above
  have most := Binary64.reach_ofUnits_le false false positive highPositive below
  rw [lowReads, Binary64.reach_withSign, ← rounded] at least
  rw [highReads, Binary64.reach_withSign, ← rounded] at most
  exact toBinary64_eq_of_reach_eq finite (le_antisymm most least)

theorem exists_reads_of_room (nonzero : x.isZero = false) {exponent : Int}
    (fine : (10 : ℚ) ^ exponent * 10 ^ 16 ≤ x.units / (2 ^ Binary64.unitExponent : Nat)) :
    ∃ digits, (⟨digits, exponent⟩ : Decimal).toBinary64 = x.withSign false := by
  obtain ⟨low, lowDenominator, high, highDenominator, lowPositive, highPositive, lowReads,
    highReads, wide⟩ := Binary64.exists_room finite nonzero
  have unit : (0 : ℚ) < 2 ^ Binary64.unitExponent := by positivity
  have step : (0 : ℚ) < 10 ^ exponent * 2 ^ Binary64.unitExponent :=
    mul_pos (zpow_pos (by norm_num) _) unit
  have narrow : (10 : ℚ) ^ exponent * 2 ^ Binary64.unitExponent ≤ x.units / 10 ^ 16 := by
    rw [le_div_iff₀ (by norm_num), mul_right_comm, ← le_div_iff₀ unit]
    exact_mod_cast fine
  have nonneg : (0 : ℚ) ≤ high / highDenominator :=
    div_nonneg (Nat.cast_nonneg high) (Nat.cast_nonneg highDenominator)
  obtain ⟨digits, above, below⟩ := exists_multiple step nonneg (narrow.trans wide.le)
  rw [← mul_assoc] at above below
  exact ⟨digits, toBinary64_of_room finite lowPositive highPositive lowReads highReads above below⟩

end Reading

/-- A decimal without zeros at its end has no greater exponent at the same value. -/
theorem exponent_le_of_value_eq {decimal other : Decimal} (ended : decimal.digits % 10 ≠ 0)
    (same : decimal.value = other.value) : other.exponent ≤ decimal.exponent := by
  by_contra greater
  obtain ⟨more, further⟩ : ∃ more : Nat, other.exponent = decimal.exponent + (more + 1 : Nat) :=
    ⟨(other.exponent - decimal.exponent - 1).toNat, by omega⟩
  have power : (10 : ℚ) ^ decimal.exponent ≠ 0 := zpow_ne_zero _ (by norm_num)
  rw [value, value, further, zpow_add₀ (by norm_num), zpow_natCast, mul_left_comm, mul_comm,
    mul_right_inj' power] at same
  have whole : decimal.digits = other.digits * 10 ^ (more + 1) := by exact_mod_cast same
  rw [whole, pow_succ, ← Nat.mul_assoc, Nat.mul_mod_left] at ended
  exact ended rfl

theorem eq_of_value_eq {decimal other : Decimal} (ended : decimal.digits % 10 ≠ 0)
    (otherEnded : other.digits % 10 ≠ 0) (same : decimal.value = other.value) :
    decimal = other := by
  have exponents : decimal.exponent = other.exponent :=
    le_antisymm (exponent_le_of_value_eq otherEnded same.symm)
      (exponent_le_of_value_eq ended same)
  have power : (10 : ℚ) ^ other.exponent ≠ 0 := zpow_ne_zero _ (by norm_num)
  rw [value, value, exponents, mul_left_inj' power, Nat.cast_inj] at same
  cases decimal
  cases other
  simp_all

/-- A decimal that reads as the magnitude of a number, without zeros at its end and with no more
digits than any other that reads so. -/
structure IsShortest (x : Binary64) (decimal : Decimal) : Prop where
  reads : decimal.toBinary64 = x.withSign false
  ended : decimal.digits % 10 ≠ 0
  least : ∀ other : Decimal, other.toBinary64 = x.withSign false →
    digitCount decimal.digits ≤ digitCount other.digits

theorem dropZeros_digits_le (fuel : Nat) (decimal : Decimal) :
    (dropZeros fuel decimal).digits ≤ decimal.digits := by
  fun_induction dropZeros fuel decimal with
  | case1 decimal => exact le_rfl
  | case2 fuel decimal ends ih => exact ih.trans (Nat.div_le_self _ _)
  | case3 fuel decimal ends => exact le_rfl

theorem dropZeros_ended {fuel : Nat} {decimal : Decimal} (some : decimal.digits ≠ 0)
    (enough : decimal.digits < 10 ^ fuel) : (dropZeros fuel decimal).digits % 10 ≠ 0 := by
  fun_induction dropZeros fuel decimal with
  | case1 decimal => omega
  | case2 fuel decimal ends ih => exact ih (by simp only; omega) (by simp only; omega)
  | case3 fuel decimal ends => exact fun zero => ends ⟨some, zero⟩

theorem value_of_power (count : Nat) (exponent : Int) :
    (⟨10 ^ count, exponent⟩ : Decimal).value = 10 ^ (count + exponent) := by
  rw [value, zpow_add₀ (by norm_num), zpow_natCast]
  push_cast
  rfl

theorem digitCount_le_iff {n count : Nat} (positive : 0 < count) :
    digitCount n ≤ count ↔ n < 10 ^ count :=
  Nat.length_toDigits_le_iff (by decide) positive

/-- The exponent of the leading digit of a number. -/
def leading (x : Binary64) : Int :=
  leadingExponent x.units (2 ^ Binary64.unitExponent)

/-- What the search finds on the grid that shows some digits behind the leading one. -/
def attempt (x : Binary64) (more : Nat) : Option Decimal :=
  neighbour? (x.withSign false) x.units (2 ^ Binary64.unitExponent) (leading x - more)

section Search

variable {x : Binary64} (finite : x.isFinite = true) (nonzero : x.isZero = false)

include finite nonzero

theorem leading_spec :
    (10 : ℚ) ^ leading x ≤ (exact x.units).value ∧
      (exact x.units).value < 10 ^ (leading x + 1) := by
  have positive : 0 < x.units := by
    cases x with
    | nan => cases finite
    | infinity sign => cases finite
    | finite sign significand scale canonical =>
      have some : significand ≠ 0 := by simpa [Binary64.isZero] using nonzero
      exact Nat.mul_pos (Nat.pos_of_ne_zero some) (Nat.two_pow_pos scale)
  rw [exact_value]
  exact leadingExponent_spec positive (Nat.two_pow_pos _)

theorem attempt_sixteen : attempt x 16 ≠ none := by
  have fine : (10 : ℚ) ^ (leading x - 16) * 10 ^ 16 ≤ (exact x.units).value := by
    refine le_trans (le_of_eq ?_) (leading_spec finite nonzero).1
    rw [← zpow_natCast, ← zpow_add₀ (by norm_num), Nat.cast_ofNat, sub_add_cancel]
  rw [exact_value] at fine
  obtain ⟨digits, reads⟩ := exists_reads_of_room finite nonzero fine
  exact neighbour?_ne_none finite reads

theorem exists_found :
    ∃ (more : Nat) (decimal : Decimal), more ≤ 16 ∧ attempt x more = some decimal ∧
      shortest x = dropZeros (digitCount decimal.digits) decimal ∧
      ∀ fewer < more, attempt x fewer = none := by
  have enough := attempt_sixteen finite nonzero
  have searched : shortest x = dropZeros
      (digitCount (((List.range greatestDigitCount).findSome? (attempt x)).getD
        (exact x.units)).digits)
      (((List.range greatestDigitCount).findSome? (attempt x)).getD (exact x.units)) := rfl
  cases search : (List.range greatestDigitCount).findSome? (attempt x) with
  | none =>
    rw [List.findSome?_eq_none_iff] at search
    exact absurd (search 16 (by decide)) enough
  | some decimal =>
    rw [search] at searched
    obtain ⟨before, more, behind, split, found, missed⟩ := List.findSome?_eq_some_iff.mp search
    have ordered : (before ++ more :: behind).Pairwise (· < ·) := by
      rw [← split]
      exact List.pairwise_lt_range
    have member {n : Nat} : n ∈ before ++ more :: behind ↔ n < greatestDigitCount := by
      rw [← split, List.mem_range]
    have few : more < greatestDigitCount := member.mp (by simp)
    refine ⟨more, decimal, Nat.le_of_lt_succ few, found, searched, fun fewer less => ?_⟩
    have inside : fewer ∈ before ++ more :: behind := member.mpr (less.trans few)
    rcases List.mem_append.mp inside with earlier | later
    · exact missed fewer earlier
    · obtain ⟨least, -⟩ := List.pairwise_cons.mp (List.pairwise_append.mp ordered).2.1
      rcases List.mem_cons.mp later with same | behind
      · omega
      · exact absurd (least fewer behind) (by omega)

/-- What an attempt finds has at most one digit more than it shows behind the leading one, or is
the power of ten above. -/
theorem attempt_digits_le {more : Nat} {decimal : Decimal} (found : attempt x more = some decimal) :
    decimal.digits ≤ 10 ^ (more + 1) := by
  refine (neighbour?_digits_le found).trans ?_
  obtain ⟨floor, -⟩ :=
    gridFloor_spec x.units (2 ^ Binary64.unitExponent) (leading x - more)
  rw [← exact_value] at floor
  have power : (0 : ℚ) < 10 ^ (leading x - more) := zpow_pos (by norm_num) _
  have ceiling := floor.trans_lt (leading_spec finite nonzero).2
  have split : leading x + 1 = ((more + 1 : Nat) : Int) + (leading x - more) := by
    push_cast
    ring
  rw [split, zpow_add₀ (by norm_num), zpow_natCast, mul_lt_mul_iff_left₀ power] at ceiling
  exact_mod_cast ceiling

theorem digitCount_shortest_le {more : Nat} {decimal : Decimal}
    (found : attempt x more = some decimal)
    (searched : shortest x = dropZeros (digitCount decimal.digits) decimal) :
    digitCount (shortest x).digits ≤ more + 1 ∧ (shortest x).digits % 10 ≠ 0 := by
  have digits := attempt_digits_le finite nonzero found
  have reads : decimal.toBinary64 = x.withSign false := neighbour?_toBinary64 found
  have some := digits_ne_zero_of_toBinary64 nonzero reads
  have ended : (shortest x).digits % 10 ≠ 0 := by
    rw [searched]
    exact dropZeros_ended some (digitCount_bounds some).2
  refine ⟨?_, ended⟩
  rcases digits.lt_or_eq with less | power
  · rw [digitCount_le_iff (by omega), searched]
    exact (dropZeros_digits_le _ _).trans_lt less
  · -- A power of ten has a single digit when its zeros are dropped.
    obtain ⟨_, exponent⟩ := decimal
    subst power
    have value : (shortest x).value =
        (⟨10 ^ 0, ((more + 1 : Nat) : Int) + exponent⟩ : Decimal).value := by
      rw [searched, dropZeros_value, value_of_power, value_of_power, Nat.cast_zero, zero_add]
    have single : digitCount (10 ^ 0) = 1 := rfl
    rw [eq_of_value_eq ended (show 10 ^ 0 % 10 ≠ 0 by decide) value, single]
    exact Nat.le_add_left 1 more

omit nonzero in
theorem attempt_ne_none_of_reads {digits more : Nat} {exponent : Int}
    (reads : (⟨digits, exponent⟩ : Decimal).toBinary64 = x.withSign false)
    (grid : exponent = leading x - more) : attempt x more ≠ none := by
  rw [grid] at reads
  unfold attempt
  exact neighbour?_ne_none finite reads

/-- A decimal that reads as a number is met by the search as soon as it shows as many digits. -/
theorem attempt_ne_none {other : Decimal} (reads : other.toBinary64 = x.withSign false) :
    ∃ more < digitCount other.digits, attempt x more ≠ none := by
  have some := digits_ne_zero_of_toBinary64 nonzero reads
  have present : 0 < digitCount other.digits := Nat.length_toDigits_pos
  have own := exact_toBinary64 finite
  obtain ⟨low, high⟩ := leading_spec finite nonzero
  have point : other.point = other.exponent + digitCount other.digits := rfl
  -- In another decade than the number, a power of ten lies between the two.
  rcases lt_trichotomy (other.point - 1) (leading x) with less | same | greater
  · have one : (⟨10 ^ 0, leading x⟩ : Decimal).toBinary64 = x.withSign false := by
      apply toBinary64_between finite reads own
      · rw [value_of_power, Nat.cast_zero, zero_add]
        exact ((value_lt_iff some _).mpr (by omega)).le
      · rw [value_of_power, Nat.cast_zero, zero_add]
        exact low
    exact ⟨0, present, attempt_ne_none_of_reads finite one (by rw [Nat.cast_zero, sub_zero])⟩
  · exact ⟨digitCount other.digits - 1, by omega,
      attempt_ne_none_of_reads finite reads (by omega)⟩
  · have ten : (⟨10 ^ 1, leading x⟩ : Decimal).toBinary64 = x.withSign false := by
      apply toBinary64_between finite own reads
      · rw [value_of_power, Nat.cast_one, add_comm]
        exact high.le
      · rw [value_of_power, Nat.cast_one, add_comm]
        exact not_lt.mp (mt (value_lt_iff some _).mp (by omega))
    exact ⟨0, present, attempt_ne_none_of_reads finite ten (by rw [Nat.cast_zero, sub_zero])⟩

/-- The shortest decimal of a number has no more digits than any that reads as the number. -/
theorem isShortest_shortest : IsShortest x (shortest x) := by
  obtain ⟨more, decimal, -, found, searched, missed⟩ := exists_found finite nonzero
  obtain ⟨few, ended⟩ := digitCount_shortest_le finite nonzero found searched
  refine ⟨shortest_toBinary64 finite, ended, fun other reads => ?_⟩
  obtain ⟨enough, shown, succeeds⟩ := attempt_ne_none finite nonzero reads
  have first : more ≤ enough := by
    by_contra later
    exact succeeds (missed enough (not_le.mp later))
  omega

end Search

/-- A number is less than the one that a power of ten reads as just when its shortest decimals are
less than the power, provided that no single digit below the power reads as the same number. -/
theorem IsShortest.less_iff {x : Binary64} (finite : x.isFinite = true) {decimal : Decimal}
    (shortest : IsShortest x decimal) {exponent : Int}
    (apart : (Binary64.ofDecimal 9 (exponent - 1)).reach < (Binary64.ofDecimal 1 exponent).reach) :
    (x.withSign false).less (.ofDecimal 1 exponent) = true ↔ decimal.value < 10 ^ exponent := by
  have number := Binary64.isNaN_of_isFinite finite
  have power : (⟨1, exponent⟩ : Decimal).value = 10 ^ exponent := by simp [value]
  have far : decimal.toBinary64.reach = x.reach := by
    rw [shortest.reads, Binary64.reach_withSign]
  rw [← Binary64.withSign_ofDecimal,
    Binary64.less_withSign_false number (Binary64.isNaN_ofDecimal _ _), decide_eq_true_iff, ← far,
    ← power]
  constructor
  · intro less
    by_contra notLess
    exact absurd (reach_toBinary64_le (not_lt.mp notLess)) (not_le.mpr less)
  · intro less
    refine lt_of_le_of_ne (reach_toBinary64_le less.le) fun same => ?_
    -- At the power itself a single digit is enough, and the greatest one below it reads as less.
    have reads : (⟨1, exponent⟩ : Decimal).toBinary64 = x.withSign false :=
      toBinary64_eq_of_reach_eq finite (same.symm.trans far)
    have single : digitCount decimal.digits ≤ digitCount 1 := shortest.least ⟨1, exponent⟩ reads
    have one : digitCount 1 = 1 := rfl
    rw [one, digitCount_le_iff Nat.one_pos] at single
    have some : decimal.digits ≠ 0 := by have := shortest.ended; omega
    have smaller : decimal.exponent ≤ exponent - 1 := by
      have below := (value_lt_iff some exponent).mp (power ▸ less)
      have present : 0 < digitCount decimal.digits := Nat.length_toDigits_pos
      rw [point] at below
      omega
    have bound : decimal.value ≤ (⟨9, exponent - 1⟩ : Decimal).value := by
      have digit : (decimal.digits : ℚ) ≤ 9 := by exact_mod_cast (by omega : decimal.digits ≤ 9)
      have powers : (10 : ℚ) ^ decimal.exponent ≤ 10 ^ (exponent - 1) :=
        zpow_le_zpow_right₀ (by norm_num) smaller
      exact mul_le_mul digit powers (zpow_nonneg (by norm_num) _) (by norm_num)
    exact absurd (same ▸ reach_toBinary64_le bound) (not_le.mpr apart)

end Decimal

end Calculator

import Calculator.Binary64.Integral
import Calculator.Proofs.Binary64.Rounding
import Calculator.Proofs.Session.Key

/-!
Finite numbers as exact rational values, and rounding as a function of signed numbers of units. It
leaves what a finite number can represent as it is and never turns an order around, so a sum lies
between any two representable bounds of the exact sum. Floors are exact.
-/

namespace Calculator.Binary64

/-- One, in units. -/
def unity : Int := 2 ^ unitExponent

theorem unity_pos : 0 < unity := by
  unfold unity
  positivity

theorem unity_eq_natCast : unity = (2 ^ unitExponent : Nat) := by
  rw [unity, Nat.cast_pow, Nat.cast_ofNat]

theorem natAbs_unity : unity.natAbs = 2 ^ unitExponent := by
  rw [unity_eq_natCast, Int.natAbs_natCast]

theorem unity_eq {scale : Nat} (low : scale ≤ unitExponent) :
    unity = 2 ^ (unitExponent - scale) * 2 ^ scale := by
  rw [unity, ← pow_add, Nat.sub_add_cancel low]

/-- The exact value of a finite number. -/
def value (x : Binary64) : ℚ :=
  x.signedUnits / unity

section Value

variable {x y : Binary64}

theorem value_le_iff : x.value ≤ y.value ↔ x.signedUnits ≤ y.signedUnits := by
  have positive : (0 : ℚ) < unity := by exact_mod_cast unity_pos
  rw [value, value, div_le_div_iff_of_pos_right positive]
  exact_mod_cast Iff.rfl

theorem value_eq_iff {n : Int} : x.value = n ↔ x.signedUnits = n * unity := by
  have nonzero : (unity : ℚ) ≠ 0 := by exact_mod_cast unity_pos.ne'
  rw [value, div_eq_iff nonzero]
  exact_mod_cast Iff.rfl

theorem floorInt_eq (x : Binary64) : x.floorInt = x.signedUnits / unity :=
  rfl

theorem floor_div_unity (n : Int) : ⌊(n : ℚ) / unity⌋ = n / unity := by
  rw [unity_eq_natCast, Int.cast_natCast, Rat.floor_intCast_div_natCast]

end Value

section Representable

/-- The number of units is that of a finite number. -/
def Representable (n : Int) : Prop :=
  ∃ x : Binary64, x.isFinite = true ∧ x.signedUnits = n

theorem representable_zero : Representable 0 :=
  ⟨zero false, rfl, rfl⟩

theorem natAbs_signedUnits (x : Binary64) : x.signedUnits.natAbs = x.units := by
  unfold signedUnits
  split <;> simp

theorem signedUnits_finite {negative : Bool} {significand scale : Nat}
    (canonical : Canonical significand scale) :
    (finite negative significand scale canonical).signedUnits =
      (if negative then -(significand : Int) else significand) * 2 ^ scale := by
  cases negative <;> simp [signedUnits, isNegative, units]

theorem signedUnits_withSign {x : Binary64} (finite : x.isFinite = true) (negative : Bool) :
    (x.withSign negative).signedUnits = if negative then -(x.units : Int) else x.units := by
  cases x with
  | nan => cases finite
  | infinity sign => cases finite
  | finite sign significand scale canonical => rfl

theorem reach_eq_units {x : Binary64} (finite : x.isFinite = true) : x.reach = x.units := by
  cases x with
  | nan => cases finite
  | infinity sign => cases finite
  | finite sign significand scale canonical => rfl

theorem representable_of_units {x : Binary64} (finite : x.isFinite = true) {n : Int}
    (same : x.units = n.natAbs) : Representable n := by
  refine ⟨x.withSign (decide (n < 0)), ?_, ?_⟩
  · cases x <;> exact finite
  · rw [signedUnits_withSign finite, same]
    split_ifs with negative
    · have := of_decide_eq_true negative
      omega
    · have := of_decide_eq_false (Bool.eq_false_of_not_eq_true negative)
      omega

/-- A significand of at most fifty-three bits can be scaled in any way that leaves room for a
carry. -/
private theorem exists_units_eq {significand scale : Nat} (narrow : significand ≤ 2 ^ 53)
    (low : scale ≤ 2044) :
    ∃ x : Binary64, x.isFinite = true ∧ x.units = significand * 2 ^ scale := by
  induction scale generalizing significand with
  | zero =>
    by_cases carry : significand = 2 ^ 53
    · exact ⟨.finite false (2 ^ 52) 1 (by decide), rfl, by rw [carry]; rfl⟩
    · exact ⟨.finite false significand 0 ⟨by omega, by omega, fun _ => rfl⟩, rfl, rfl⟩
  | succ scale ih =>
    by_cases carry : significand = 2 ^ 53
    · refine ⟨.finite false (2 ^ 52) (scale + 2) ⟨by decide, by omega, by omega⟩, rfl, ?_⟩
      have moved : 2 ^ 52 * 2 ^ (scale + 2) = 2 ^ 53 * 2 ^ (scale + 1) := by ring
      rw [carry, ← moved]
      rfl
    · by_cases wide : 2 ^ 52 ≤ significand
      · exact ⟨.finite false significand (scale + 1) ⟨by omega, by omega, by omega⟩, rfl, rfl⟩
      · obtain ⟨x, finite, same⟩ := ih (by omega : 2 * significand ≤ 2 ^ 53) (by omega)
        exact ⟨x, finite, by rw [same]; ring⟩

theorem representable_mul {significand : Int} {scale : Nat}
    (narrow : significand.natAbs ≤ 2 ^ 53) (low : scale ≤ 2044) :
    Representable (significand * 2 ^ scale) := by
  obtain ⟨x, finite, same⟩ := exists_units_eq narrow low
  apply representable_of_units finite
  rw [same, Int.natAbs_mul, Int.natAbs_pow]
  rfl

end Representable

section Nearest

/-- The number of units that a signed number of units is rounded to. -/
def nearestUnits (n : Int) : Int :=
  n.sign * (ofUnits false n.natAbs 1).reach

theorem nearestUnits_neg (n : Int) : nearestUnits (-n) = -nearestUnits n := by
  simp [nearestUnits]

theorem nearestUnits_of_nonneg {n : Int} (nonnegative : 0 ≤ n) :
    nearestUnits n = (ofUnits false n.natAbs 1).reach := by
  by_cases zero : n = 0
  · subst zero
    rfl
  · rw [nearestUnits, Int.sign_eq_one_of_pos (by omega), one_mul]

theorem nearestUnits_of_representable {n : Int} (exact : Representable n) :
    nearestUnits n = n := by
  obtain ⟨x, finite, rfl⟩ := exact
  have rounded := ofUnits_exact finite false Nat.one_pos
  rw [mul_one] at rounded
  rw [nearestUnits, natAbs_signedUnits, rounded, reach_withSign, reach_eq_units finite,
    ← natAbs_signedUnits, Int.sign_mul_natAbs]

private theorem nearestUnits_le_of_nonneg {n m : Int} (nonnegative : 0 ≤ n) (le : n ≤ m) :
    nearestUnits n ≤ nearestUnits m := by
  rw [nearestUnits_of_nonneg nonnegative, nearestUnits_of_nonneg (nonnegative.trans le)]
  have magnitudes : (n.natAbs : ℚ) / (1 : Nat) ≤ m.natAbs / (1 : Nat) := by
    have : n.natAbs ≤ m.natAbs := by omega
    gcongr
  exact_mod_cast reach_ofUnits_le false false Nat.one_pos Nat.one_pos magnitudes

theorem nearestUnits_le {n m : Int} (le : n ≤ m) : nearestUnits n ≤ nearestUnits m := by
  by_cases nonnegative : 0 ≤ n
  · exact nearestUnits_le_of_nonneg nonnegative le
  · by_cases positive : 0 ≤ m
    · -- Zero lies between the two and is its own rounding.
      have zero : nearestUnits 0 = 0 := rfl
      have below := nearestUnits_le_of_nonneg le_rfl (by omega : 0 ≤ -n)
      have above := nearestUnits_le_of_nonneg le_rfl positive
      rw [nearestUnits_neg] at below
      omega
    · have turned := nearestUnits_le_of_nonneg (by omega : 0 ≤ -m) (by omega : -m ≤ -n)
      rw [nearestUnits_neg, nearestUnits_neg] at turned
      omega

/-- A part of a step above a number, the number or the next one is nearest; half way the even one
is. -/
theorem nearestUnits_of_rest {significand scale rest : Nat}
    (canonical : Canonical significand scale) (part : rest < 2 ^ scale) :
    nearestUnits (significand * 2 ^ scale + rest : Nat) =
      ((if 2 ^ scale < 2 * rest ∨ 2 ^ scale = 2 * rest ∧ significand % 2 = 1 then significand + 1
        else significand) * 2 ^ scale : Nat) := by
  have power := Nat.two_pow_pos scale
  have quotient : (significand * 2 ^ scale + rest) / 2 ^ scale = significand := by
    rw [Nat.add_comm, Nat.add_mul_div_right _ _ power, Nat.div_eq_of_lt part, Nat.zero_add]
  have remainder : (significand * 2 ^ scale + rest) % 2 ^ scale = rest := by
    rw [Nat.add_comm, Nat.add_mul_mod_self_right, Nat.mod_eq_of_lt part]
  have scaled : unitScale (significand * 2 ^ scale + rest) 1 = scale :=
    unitScale_of_div_eq canonical (by rw [one_mul, quotient])
  have rounded : unitSignificand (significand * 2 ^ scale + rest) 1 =
      if 2 ^ scale < 2 * rest ∨ 2 ^ scale = 2 * rest ∧ significand % 2 = 1 then significand + 1
        else significand := by
    rw [unitSignificand, scaled, one_mul, nearestQuotient, quotient, remainder]
  have room := unitSignificand_le (significand * 2 ^ scale + rest) 1
  rw [nearestUnits_of_nonneg (Int.natCast_nonneg _), Int.natAbs_natCast, reach_ofUnits, scaled,
    ← rounded, min_eq_right]
  exact (Nat.mul_le_mul room (two_pow_le canonical.2.1)).trans_eq beyond_eq.symm

theorem natAbs_nearestUnits (n : Int) :
    (nearestUnits n).natAbs = (ofUnits false n.natAbs 1).reach := by
  by_cases nonnegative : 0 ≤ n
  · rw [nearestUnits_of_nonneg nonnegative, Int.natAbs_natCast]
  · rw [← Int.natAbs_neg, ← nearestUnits_neg, nearestUnits_of_nonneg (by omega),
      Int.natAbs_natCast, Int.natAbs_neg]

theorem isFinite_of_reach_lt {x : Binary64} (number : x.isNaN = false)
    (bounded : x.reach < beyond) : x.isFinite = true := by
  cases x with
  | nan => cases number
  | infinity sign => exact absurd bounded (lt_irrefl beyond)
  | finite sign significand scale canonical => rfl

/-- A number of units is rounded to a finite number, unless infinity is nearest. -/
theorem ofUnits_natAbs {n : Int} (bounded : (nearestUnits n).natAbs < beyond) :
    (ofUnits (decide (n < 0)) n.natAbs 1).isFinite = true ∧
      (ofUnits (decide (n < 0)) n.natAbs 1).signedUnits = nearestUnits n := by
  have finite : (ofUnits false n.natAbs 1).isFinite = true :=
    isFinite_of_reach_lt (isNaN_ofUnits _ _ _) (natAbs_nearestUnits n ▸ bounded)
  rw [← withSign_ofUnits false]
  refine ⟨?_, ?_⟩
  · cases rounded : ofUnits false n.natAbs 1 <;> rw [rounded] at finite <;> exact finite
  · rw [signedUnits_withSign finite, ← reach_eq_units finite, nearestUnits]
    by_cases negative : n < 0
    · rw [if_pos (decide_eq_true negative), Int.sign_eq_neg_one_of_neg negative, neg_one_mul]
    · rw [if_neg (by simpa using negative), ← nearestUnits, nearestUnits_of_nonneg (by omega)]

/-- The sum of two finite numbers is the exact sum rounded once. -/
theorem add_of_finite {x y : Binary64} (finite : x.isFinite = true) (other : y.isFinite = true)
    (bounded : (nearestUnits (x.signedUnits + y.signedUnits)).natAbs < beyond) :
    (x.add y).isFinite = true ∧
      (x.add y).signedUnits = nearestUnits (x.signedUnits + y.signedUnits) := by
  have sum : x.add y = if x.signedUnits + y.signedUnits = 0 then zero (x.isNegative && y.isNegative)
      else ofUnits (decide (x.signedUnits + y.signedUnits < 0))
        (x.signedUnits + y.signedUnits).natAbs 1 := by
    cases x with
    | nan => cases finite
    | infinity sign => cases finite
    | finite =>
      cases y with
      | nan => cases other
      | infinity sign => cases other
      | finite => rfl
  rw [sum]
  split_ifs with nothing
  · rw [nothing]
    exact ⟨rfl, by cases x.isNegative && y.isNegative <;> rfl⟩
  · exact ofUnits_natAbs bounded

theorem Representable.natAbs_lt_beyond {n : Int} (exact : Representable n) :
    n.natAbs < beyond := by
  obtain ⟨x, finite, rfl⟩ := exact
  rw [natAbs_signedUnits]
  cases x with
  | nan => cases finite
  | infinity sign => cases finite
  | finite sign significand scale canonical => exact canonical.lt_beyond

/-- An integer that a finite number can represent is converted without rounding. -/
theorem ofInt_of_representable {n : Int} (exact : Representable (n * unity)) :
    (ofInt n).isFinite = true ∧ (ofInt n).signedUnits = n * unity := by
  have magnitude : (n * unity).natAbs = n.natAbs * 2 ^ unitExponent := by
    rw [Int.natAbs_mul, natAbs_unity]
  have sign : decide (n * unity < 0) = decide (n < 0) := by
    rw [decide_eq_decide, Int.mul_neg_iff]
    have := unity_pos
    omega
  have same := nearestUnits_of_representable exact
  have rounded := ofUnits_natAbs (by rw [same]; exact exact.natAbs_lt_beyond)
  rw [same, magnitude, sign] at rounded
  exact rounded

end Nearest

section Floor

variable {x y : Binary64}

theorem unity_dvd {negative : Bool} {significand scale : Nat}
    {canonical : Canonical significand scale} (high : unitExponent ≤ scale) :
    unity ∣ (finite negative significand scale canonical).signedUnits := by
  have magnitude : unity ∣ ((significand * 2 ^ scale : Nat) : Int) := by
    push_cast
    exact (pow_dvd_pow 2 high).mul_left _
  cases negative with
  | true => exact magnitude.neg_right
  | false => exact magnitude

theorem natAbs_ediv_le {n : Int} {bound : Nat} (bounded : n.natAbs ≤ bound * 2 ^ unitExponent) :
    (n / unity).natAbs ≤ bound := by
  have scaled : ((bound * 2 ^ unitExponent : Nat) : Int) = bound * unity := by
    rw [Nat.cast_mul, ← unity_eq_natCast]
  have low : -(bound : Int) ≤ n / unity := by
    apply Int.le_ediv_of_mul_le unity_pos
    rw [Int.neg_mul]
    omega
  have high : n / unity ≤ bound := by
    apply Int.ediv_le_of_le_mul unity_pos
    omega
  omega

/-- The floor of a finite number is an integer that a finite number can represent. -/
theorem representable_floorInt (finite : x.isFinite = true) :
    Representable (x.floorInt * unity) := by
  cases x with
  | nan => cases finite
  | infinity sign => cases finite
  | finite sign significand scale canonical =>
    by_cases high : unitExponent ≤ scale
    · exact ⟨_, rfl, (Int.ediv_mul_cancel (unity_dvd high)).symm⟩
    · -- Below the scale of the integers a magnitude is less than the greatest integers.
      have small : significand * 2 ^ scale ≤ 2 ^ 53 * 2 ^ unitExponent :=
        Nat.mul_le_mul canonical.1.le (two_pow_le (by omega))
      refine representable_mul (natAbs_ediv_le ?_) (by decide)
      rw [natAbs_signedUnits]
      exact small

theorem floor_exact (finite : x.isFinite = true) :
    (ofInt x.floorInt).isFinite = true ∧ (ofInt x.floorInt).signedUnits = x.floorInt * unity :=
  ofInt_of_representable (representable_floorInt finite)

end Floor

section Equality

variable {x y : Binary64}

theorem isZero_iff_units_eq_zero (finite : x.isFinite = true) :
    x.isZero = true ↔ x.units = 0 := by
  cases x with
  | nan => cases finite
  | infinity sign => cases finite
  | finite sign significand scale canonical => simp [isZero, units]

theorem signedUnits_dropZeroSign (finite : x.isFinite = true) :
    x.dropZeroSign.signedUnits = x.signedUnits := by
  unfold dropZeroSign
  split_ifs with nothing
  · rw [isZero_iff_units_eq_zero finite] at nothing
    have : x.signedUnits.natAbs = 0 := (natAbs_signedUnits x).trans nothing
    have zero : (zero false).signedUnits = 0 := rfl
    omega
  · rfl

theorem withSign_isNegative (x : Binary64) : x.withSign x.isNegative = x := by
  cases x <;> rfl

theorem isNegative_iff_signedUnits_neg (nonzero : x.units ≠ 0) :
    x.isNegative = true ↔ x.signedUnits < 0 := by
  unfold signedUnits
  split_ifs with negative
  · exact iff_of_true negative (by omega)
  · exact iff_of_false negative (by omega)

theorem equal_iff_value_eq (finite : x.isFinite = true) (other : y.isFinite = true) :
    x.equal y = true ↔ x.value = y.value := by
  have number := isNaN_of_isFinite finite
  have otherNumber := isNaN_of_isFinite other
  have equality : x.equal y = true ↔ x.dropZeroSign = y.dropZeroSign := by
    simp [equal, number, otherNumber]
  have values : x.value = y.value ↔ x.signedUnits = y.signedUnits := by
    simp only [le_antisymm_iff, value_le_iff]
  rw [equality, values]
  constructor
  · intro same
    rw [← signedUnits_dropZeroSign finite, same, signedUnits_dropZeroSign other]
  · intro same
    have magnitudes : x.units = y.units := by
      rw [← natAbs_signedUnits, same, natAbs_signedUnits]
    by_cases nothing : x.units = 0
    · have zero := (isZero_iff_units_eq_zero finite).mpr nothing
      have otherZero := (isZero_iff_units_eq_zero other).mpr (magnitudes ▸ nothing)
      simp [dropZeroSign, zero, otherZero]
    · have signs : x.isNegative = y.isNegative := by
        rw [Bool.eq_iff_iff, isNegative_iff_signedUnits_neg nothing, same,
          isNegative_iff_signedUnits_neg (magnitudes ▸ nothing)]
      rw [← withSign_isNegative x, ← withSign_isNegative y, signs]
      have reached : x.reach = y.reach := by
        rw [reach_eq_units finite, reach_eq_units other, magnitudes]
      rw [withSign_eq_of_reach_eq number otherNumber reached]

end Equality

end Calculator.Binary64

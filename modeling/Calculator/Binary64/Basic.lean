import Calculator.Power

/-! Binary floating point numbers of sixty-four bits. A finite number is an exact multiple of the
least positive one, `2 ^ -1074`, so its magnitude is a natural number of units; every number has
one form, and there is one value that is not a number. -/

namespace Calculator

/-- The least positive number is two to the minus this. -/
def Binary64.unitExponent : Nat := 1074

/-- The significands and scales of finite numbers. A significand of less than full width is allowed
at the least scale only, which makes the form of a number unique. -/
def Binary64.Canonical (significand scale : Nat) : Prop :=
  significand < 2 ^ 53 ∧ scale ≤ 2045 ∧ (significand < 2 ^ 52 → scale = 0)

instance (significand scale : Nat) : Decidable (Binary64.Canonical significand scale) := by
  unfold Binary64.Canonical
  infer_instance

/-- A number of sixty-four bits: `finite negative significand scale` has the magnitude
`significand * 2 ^ scale` units. -/
inductive Binary64 where
  | nan
  | infinity (negative : Bool)
  | finite (negative : Bool) (significand scale : Nat)
      (canonical : Binary64.Canonical significand scale)
deriving DecidableEq

namespace Binary64

theorem canonical_zero : Canonical 0 0 := by decide

def zero (negative : Bool) : Binary64 :=
  .finite negative 0 0 canonical_zero

instance : Inhabited Binary64 := ⟨zero false⟩

def isFinite : Binary64 → Bool
  | .finite .. => true
  | _ => false

def isNaN : Binary64 → Bool
  | .nan => true
  | _ => false

def isZero : Binary64 → Bool
  | .finite _ significand _ _ => significand == 0
  | _ => false

/-- The sign, which a zero has too; nan counts as positive. -/
def isNegative : Binary64 → Bool
  | .nan => false
  | .infinity negative => negative
  | .finite negative _ _ _ => negative

/-- The magnitude of a finite number in units of the least positive one. -/
def units : Binary64 → Nat
  | .finite _ significand scale _ => significand * 2 ^ scale
  | _ => 0

/-- A finite number in units of the least positive one. -/
def signedUnits (x : Binary64) : Int :=
  if x.isNegative then -(x.units : Int) else x.units

def withSign (negative : Bool) : Binary64 → Binary64
  | .nan => .nan
  | .infinity _ => .infinity negative
  | .finite _ significand scale canonical => .finite negative significand scale canonical

def neg (x : Binary64) : Binary64 :=
  x.withSign !x.isNegative

/-- The same number with the sign of a zero dropped. Two numbers are equal as numbers when these
are the same, nan apart. -/
def dropZeroSign (x : Binary64) : Binary64 :=
  if x.isZero then zero false else x

/-- Equality as numbers: both zeros are equal, and nan equals nothing. -/
def equal (x y : Binary64) : Bool :=
  !x.isNaN && !y.isNaN && x.dropZeroSign == y.dropZeroSign

/-- Strictly less, as numbers; nan is not comparable. -/
def less : Binary64 → Binary64 → Bool
  | .nan, _ => false
  | _, .nan => false
  | .infinity negative, .infinity other => negative && !other
  | .infinity negative, .finite .. => negative
  | .finite .., .infinity negative => !negative
  | x, y => decide (x.signedUnits < y.signedUnits)

/-- The sixty-four bits: sign, eleven bits of exponent, fifty-two of fraction. -/
def toBits : Binary64 → Nat
  | .nan => 0x7FF8000000000000
  | .infinity negative => (if negative then 2 ^ 63 else 0) + 2047 * 2 ^ 52
  | .finite negative significand scale _ =>
    (if negative then 2 ^ 63 else 0) +
      (if significand < 2 ^ 52 then significand else scale * 2 ^ 52 + significand)

/-- The number with the given bits; bits above the sixty-fourth are not looked at. -/
def ofBits (bits : Nat) : Binary64 :=
  let negative := bits / 2 ^ 63 % 2 == 1
  let exponent := bits / 2 ^ 52 % 2048
  let fraction := bits % 2 ^ 52
  if exponent = 2047 then
    if fraction = 0 then .infinity negative else .nan
  else if exponent = 0 then
    .finite negative fraction 0 (by
      refine ⟨?_, by decide, fun _ => rfl⟩
      have := Nat.mod_lt bits (show 0 < 2 ^ 52 by decide)
      omega)
  else if canonical : Canonical (2 ^ 52 + fraction) (exponent - 1) then
    .finite negative (2 ^ 52 + fraction) (exponent - 1) canonical
  else .nan

@[simp] theorem ofBits_toBits (x : Binary64) : ofBits x.toBits = x := by
  rcases x with _ | negative | ⟨negative, significand, scale, canonical⟩
  · decide
  · cases negative <;> decide
  · obtain ⟨narrow, low, full⟩ := id canonical
    have signBit : ∀ n < 2 ^ 63, ((if negative then 2 ^ 63 else 0) + n) / 2 ^ 63 % 2 =
        if negative then 1 else 0 := by
      intro n small
      cases negative <;> simp <;> omega
    by_cases subnormal : significand < 2 ^ 52
    · have := full subnormal
      subst this
      have sign := signBit significand (by omega)
      have exponent : ((if negative then 2 ^ 63 else 0) + significand) / 2 ^ 52 % 2048 = 0 := by
        cases negative <;> simp <;> omega
      have fraction : ((if negative then 2 ^ 63 else 0) + significand) % 2 ^ 52 = significand := by
        cases negative <;> simp <;> omega
      simp only [toBits, subnormal, if_true, ofBits, sign, exponent, fraction]
      cases negative <;> simp
    · have sign := signBit (scale * 2 ^ 52 + significand) (by omega)
      have exponent : ((if negative then 2 ^ 63 else 0) + (scale * 2 ^ 52 + significand)) / 2 ^ 52
          % 2048 = scale + 1 := by
        cases negative <;> simp <;> omega
      have fraction : ((if negative then 2 ^ 63 else 0) + (scale * 2 ^ 52 + significand)) % 2 ^ 52 =
          significand - 2 ^ 52 := by
        cases negative <;> simp <;> omega
      have whole : 2 ^ 52 + (significand - 2 ^ 52) = significand := by omega
      simp only [toBits, subnormal, if_false, ofBits, sign, exponent, fraction]
      rw [if_neg (by omega), if_neg (by omega)]
      simp only [whole, Nat.add_sub_cancel]
      rw [dif_pos canonical]
      cases negative <;> simp

end Binary64

end Calculator

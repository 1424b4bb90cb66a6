import Calculator.Binary64.Basic

/-! Rounding of exact quotients to the nearest number, a tie going to the even significand and a
result beyond the greatest finite number to infinity. Every operation computes exactly and rounds
once, here. -/

namespace Calculator.Binary64

/-- The integer nearest to a quotient, the even one of two that are equally near. -/
def nearestQuotient (numerator denominator : Nat) : Nat :=
  let quotient := numerator / denominator
  let remainder := numerator % denominator
  if denominator < 2 * remainder ∨ denominator = 2 * remainder ∧ quotient % 2 = 1 then
    quotient + 1
  else quotient

/-- The number with this significand and scale, a carry out of the significand moved into the
scale; infinity when the scale is too great. -/
def ofSignificand (negative : Bool) (significand scale : Nat) : Binary64 :=
  let carry := significand = 2 ^ 53
  let significand' := if carry then 2 ^ 52 else significand
  let scale' := if carry then scale + 1 else scale
  if canonical : Canonical significand' scale' then
    .finite negative significand' scale' canonical
  else .infinity negative

/-- The number nearest to a quotient of units. The scale leaves fifty-three bits of the quotient
before its point, or all of them when there are fewer. -/
def ofUnits (negative : Bool) (numerator denominator : Nat) : Binary64 :=
  let scale := (numerator / denominator).log2 - 52
  ofSignificand negative (nearestQuotient numerator (denominator * 2 ^ scale)) scale

def ofQuotient (negative : Bool) (numerator denominator : Nat) : Binary64 :=
  ofUnits negative (numerator * 2 ^ unitExponent) denominator

/-- The number nearest to an integer; zero is positive. -/
def ofInt (value : Int) : Binary64 :=
  ofQuotient (decide (value < 0)) value.natAbs 1

/-- The number nearest to `value * 2 ^ exponent`; zero is positive. -/
def ofDyadic (value : Int) (exponent : Int) : Binary64 :=
  let negative := decide (value < 0)
  match exponent + unitExponent with
  | .ofNat shift => ofUnits negative (value.natAbs * 2 ^ shift) 1
  | .negSucc shift => ofUnits negative value.natAbs (2 ^ (shift + 1))

/-- The number nearest to `digits * 10 ^ exponent`. -/
def ofDecimal (digits : Nat) (exponent : Int) : Binary64 :=
  match exponent with
  | .ofNat places => ofQuotient false (digits * 10 ^ places) 1
  | .negSucc places => ofQuotient false digits (10 ^ (places + 1))

end Calculator.Binary64

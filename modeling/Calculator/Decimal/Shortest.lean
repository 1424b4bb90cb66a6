import Calculator.Binary64.Rounding

namespace Calculator

/-- The number `digits * 10 ^ exponent`. -/
structure Decimal where
  digits : Nat
  exponent : Int
deriving DecidableEq

namespace Decimal

def toBinary64 (decimal : Decimal) : Binary64 :=
  .ofDecimal decimal.digits decimal.exponent

/-- How many decimal digits a number has; zero has one. -/
def digitCount (n : Nat) : Nat :=
  (Nat.toDigits 10 n).length

/-- A positive quotient divided by a power of ten, as a numerator and a denominator. -/
def scaleDown (numerator denominator : Nat) : Int → Nat × Nat
  | .ofNat places => (numerator, denominator * 10 ^ places)
  | .negSucc places => (numerator * 10 ^ (places + 1), denominator)

/-- The exponent of the power of ten that is not above a positive quotient and within a factor of
ten of it. -/
def leadingExponent (numerator denominator : Nat) : Int :=
  if denominator ≤ numerator then (digitCount (numerator / denominator) : Int) - 1
  else
    let guess : Int := -(digitCount (denominator / numerator) : Int)
    let (above, below) := scaleDown numerator denominator (guess + 1)
    if below ≤ above then guess + 1 else guess

/-- Of the two neighbours of a number on the grid of decimals with the given exponent, one that
reads back as it: the nearer one, or the even one when both are equally near. -/
def neighbour? (x : Binary64) (numerator denominator : Nat) (exponent : Int) : Option Decimal :=
  let (numerator, denominator) := scaleDown numerator denominator exponent
  let below : Decimal := ⟨numerator / denominator, exponent⟩
  let above : Decimal := ⟨numerator / denominator + 1, exponent⟩
  let rest := 2 * (numerator % denominator)
  let aboveFirst := denominator < rest || denominator == rest && below.digits % 2 == 1
  let first := if aboveFirst then above else below
  let second := if aboveFirst then below else above
  if first.toBinary64 = x then some first
  else if second.toBinary64 = x then some second
  else none

/-- Move the zeros at the end of the digits into the exponent. -/
def dropZeros : Nat → Decimal → Decimal
  | 0, decimal => decimal
  | fuel + 1, decimal =>
    if decimal.digits ≠ 0 ∧ decimal.digits % 10 = 0 then
      dropZeros fuel ⟨decimal.digits / 10, decimal.exponent + 1⟩
    else decimal

/-- A number of units as a decimal without rounding: a power of one half is the same power of five
times that of one tenth. -/
def exact (units : Nat) : Decimal :=
  ⟨units * 5 ^ Binary64.unitExponent, -(Binary64.unitExponent : Int)⟩

/-- Seventeen significant digits tell any two finite numbers apart. -/
def greatestDigitCount : Nat := 17

/-- The shortest decimal of the magnitude of a finite number other than zero, without zeros at its
end. -/
def shortest (x : Binary64) : Decimal :=
  let numerator := x.units
  let denominator := 2 ^ Binary64.unitExponent
  let magnitude := x.withSign false
  let leading := leadingExponent numerator denominator
  let found := (List.range greatestDigitCount).findSome? fun more : Nat =>
    neighbour? magnitude numerator denominator (leading - more)
  let decimal := found.getD (exact numerator)
  dropZeros (digitCount decimal.digits) decimal

end Decimal

end Calculator

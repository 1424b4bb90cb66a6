import Calculator.Binary64.Arithmetic
import Calculator.Binary64.Logarithm

/-! Powers, correctly rounded. A rational power is computed exactly, since it may lie half way
between two numbers; any other is the exponential of a multiple of a logarithm. -/

namespace Calculator.Binary64

/-- A positive number as an odd significand times a power of two. -/
structure OddForm where
  significand : Nat
  exponent : Int

/-- Halve a number while it is even. -/
def oddForm : Nat → Nat → Int → OddForm
  | 0, significand, exponent => ⟨significand, exponent⟩
  | fuel + 1, significand, exponent =>
    if significand % 2 = 0 then oddForm fuel (significand / 2) (exponent + 1)
    else ⟨significand, exponent⟩

/-- The odd form of the magnitude of a finite number other than zero. -/
def toOddForm : Binary64 → OddForm
  | .finite _ significand scale _ => oddForm 53 significand ((scale : Int) - unitExponent)
  | _ => ⟨1, 0⟩

def isOddInteger (x : Binary64) : Bool :=
  x.isFinite && !x.isZero && x.toOddForm.exponent == 0

def isInteger (x : Binary64) : Bool :=
  x.isFinite && (x.isZero || 0 ≤ x.toOddForm.exponent)

/-- Take square roots of the base, and double the exponent, while the exponent is a fraction and
the root is exact. -/
def takeRoots : Nat → OddForm → OddForm → OddForm × OddForm
  | 0, base, exponent => (base, exponent)
  | fuel + 1, base, exponent =>
    let root := base.significand.sqrt
    if exponent.exponent < 0 ∧ base.exponent % 2 = 0 ∧ root * root = base.significand then
      takeRoots fuel ⟨root, base.exponent / 2⟩ ⟨exponent.significand, exponent.exponent + 1⟩
    else (base, exponent)

/-- Exponents up to this one are applied by multiplication. A greater power of an odd significand
other than one has more bits than any number or any point half way between two. -/
def greatestExactExponent : Nat := 64

/-- Two to an integer power, beyond the range of the numbers without any great computation. -/
def powerOfTwo (exponent : Int) : Binary64 :=
  if 1100 < exponent then .infinity false
  else if exponent < -1200 then zero false
  else ofDyadic 1 exponent

/-- The power of a positive base when it is certainly rational and small enough to be computed. -/
def exactPower? (base exponent : OddForm) (negativeExponent : Bool) : Option Binary64 :=
  let (base, exponent) := takeRoots 64 base exponent
  if exponent.exponent < 0 then none
  else
    let count := exponent.significand * 2 ^ exponent.exponent.toNat
    let shift := base.exponent * count
    if base.significand = 1 then some (powerOfTwo (if negativeExponent then -shift else shift))
    else if greatestExactExponent < count then none
    else
      let power := base.significand ^ count
      if negativeExponent then
        match -shift + unitExponent with
        | .ofNat up => some (ofUnits false (2 ^ up) power)
        | .negSucc down => some (ofUnits false 1 (power * 2 ^ (down + 1)))
      else some (ofDyadic power shift)

/-- The exponential of `argument` multiples of `2 ^ -bits`, as a significand in such multiples and
a power of two. -/
def exponential (bits : Nat) (argument : Int) : Int × Int :=
  let one := 2 ^ bits
  let count := nearest argument (logTwo bits)
  let rest := argument - count * logTwo bits
  (factorialSeries one rest (fun k => k + 1) bits 0 one, count)

/-- An estimate of the power of a positive base other than one; results that are certainly out of
range get an exponent that rounds to infinity or to zero. -/
def powerEstimate (base exponent : OddForm) (negativeExponent : Bool) (precision : Nat) :
    Estimate :=
  let bits := precision + spareBits
  let logarithm := logBits (bits + 128) base.significand base.exponent
  let magnitude := shifted (logarithm * exponent.significand) (exponent.exponent - 128)
  let argument := if negativeExponent then -magnitude else magnitude
  if 710 * 2 ^ bits < argument then ⟨16, 1100⟩
  else if argument < -(746 * 2 ^ bits) then ⟨16, -1200⟩
  else
    let (significand, count) := exponential bits argument
    ⟨significand / 2 ^ spareBits, count - precision⟩

/-- The power of a positive finite base other than one, for a finite exponent other than zero. An
exponent of more than seventy bits takes every such base out of range. -/
def positivePower (x y : Binary64) : Binary64 :=
  let base := x.toOddForm
  let exponent := y.toOddForm
  if 2 ^ (unitExponent + 70) ≤ y.units then
    if decide (2 ^ unitExponent < x.units) == !y.isNegative then .infinity false else zero false
  else
    match exactPower? base exponent y.isNegative with
    | some power => power
    | none => settle (powerEstimate base exponent y.isNegative)

/-- A power whose base or exponent is infinite, neither being nan. -/
def infinitePower (x y : Binary64) : Binary64 :=
  match x with
  | .infinity _ =>
    let negative := x.isNegative && y.isOddInteger
    if y.isZero then ofInt 1
    else if y.isNegative then zero negative
    else .infinity negative
  | _ =>
    if x.units = 2 ^ unitExponent then ofInt 1
    else if decide (2 ^ unitExponent < x.units) == !y.isNegative then .infinity false
    else zero false

/-- The power. Anything to the exponent zero, and one to any exponent, is one; zero to a negative
exponent is infinite, with the sign of the zero where the exponent is odd; a negative base needs an
integer exponent. -/
def pow (x y : Binary64) : Binary64 :=
  if y.isZero || x == ofInt 1 then ofInt 1
  else if x.isNaN || y.isNaN then .nan
  else if !x.isFinite || !y.isFinite then infinitePower x y
  else
    let negative := x.isNegative && y.isOddInteger
    if x.isZero then if y.isNegative then .infinity negative else zero negative
    else if x.isNegative && !y.isInteger then .nan
    else if x.units = 2 ^ unitExponent then (ofInt 1).withSign negative
    else (positivePower x y).withSign negative

end Calculator.Binary64

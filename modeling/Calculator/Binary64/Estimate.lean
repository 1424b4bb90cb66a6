import Calculator.Binary64.Rounding

/-! Rounding of real numbers that are known by approximations only. An estimate places a real
number within two units; when both ends of that interval round to the same number, so does the real
number, and otherwise a finer estimate is taken. Series are summed over integers that stand for
multiples of a small power of two, with enough spare bits that the errors of the single steps
cannot reach the last bit that is used. -/

namespace Calculator.Binary64

/-- A real number within two units of `center`, a unit being `2 ^ exponent`. -/
structure Estimate where
  center : Int
  exponent : Int

/-- The number that everything in the interval of an estimate rounds to, if there is one. -/
def Estimate.rounded? (estimate : Estimate) : Option Binary64 :=
  let low := ofDyadic (estimate.center - 2) estimate.exponent
  let high := ofDyadic (estimate.center + 2) estimate.exponent
  if low = high then some low else none

/-- The bits of precision that are tried in turn. -/
def precisions : List Nat := [128, 256, 512, 1024, 2048]

/-- The rounding of a real number given by estimates of increasing precision. -/
def settle (estimate : Nat → Estimate) : Binary64 :=
  match precisions.findSome? fun precision => (estimate precision).rounded? with
  | some x => x
  | none => let last := estimate 4096; ofDyadic last.center last.exponent

/-- Bits beyond the wanted precision that absorb the errors of the single steps. -/
def spareBits : Nat := 64

def nearest (numerator denominator : Int) : Int :=
  (2 * numerator + denominator) / (2 * denominator)

/-- `value * 2 ^ shift`, rounded down when the shift is to the right. -/
def shifted (value : Int) : Int → Int
  | .ofNat shift => value * 2 ^ shift
  | .negSucc shift => value / 2 ^ (shift + 1)

/-- The sum of `power * ratio ^ k / (2 * k + 1)`, all of them multiples of `1 / one`. With the
square of `z` as the ratio and `z` as the power this is the inverse hyperbolic tangent of `z`, with
the negated square the inverse tangent. -/
def arcSeries (one ratio : Int) : Nat → Nat → Int → Int
  | 0, _, _ => 0
  | fuel + 1, k, power =>
    if power = 0 then 0
    else power.tdiv (2 * k + 1) + arcSeries one ratio fuel (k + 1) ((power * ratio).tdiv one)

/-- The sum of terms each of which is the last one times `ratio`, divided by the next divisor. -/
def factorialSeries (one ratio : Int) (divisor : Nat → Nat) : Nat → Nat → Int → Int
  | 0, _, _ => 0
  | fuel + 1, k, term =>
    if term = 0 then 0
    else
      term + factorialSeries one ratio divisor fuel (k + 1)
        ((term * ratio).tdiv (one * divisor k))

/-- The inverse hyperbolic tangent of a fraction of at most one third. -/
def artanh (bits : Nat) (z : Int) : Int :=
  let one := 2 ^ bits
  arcSeries one ((z * z).tdiv one) bits 0 z

/-- The inverse tangent of a fraction of at most one third. -/
def arctan (bits : Nat) (z : Int) : Int :=
  let one := 2 ^ bits
  arcSeries one (-(z * z).tdiv one) bits 0 z

def logTwo (bits : Nat) : Int :=
  2 * artanh bits (2 ^ bits / 3)

/-- The natural logarithm of ten, as three times that of two and that of five quarters. -/
def logTen (bits : Nat) : Int :=
  3 * logTwo bits + 2 * artanh bits (2 ^ bits / 9)

/-- The ratio of a circle's circumference to its diameter, as sixteen times the inverse tangent of
one fifth less four times that of one 239th. -/
def circle (bits : Nat) : Int :=
  16 * arctan bits (2 ^ bits / 5) - 4 * arctan bits (2 ^ bits / 239)

end Calculator.Binary64

import Calculator.Binary64.Estimate

namespace Calculator.Binary64

/-- The natural logarithm of `significand * 2 ^ exponent` in multiples of `2 ^ -bits`. The
significand is brought between half the square root of two and that root; what is left of the
exponent counts logarithms of two. -/
def logBits (bits significand : Nat) (exponent : Int) : Int :=
  let width := significand.log2
  let width := if 2 ^ (2 * width + 1) < significand * significand then width + 1 else width
  let whole : Int := 2 ^ width
  let z := ((significand - whole) * 2 ^ bits).tdiv (significand + whole)
  2 * artanh bits z + (exponent + width) * logTwo bits

/-- The logarithm of a positive finite number other than one, given by its estimates; nan for a
negative number, and negative infinity for either zero. -/
def logarithmBy (estimate : Nat → Int → Nat → Estimate) (x : Binary64) : Binary64 :=
  match x with
  | .nan => .nan
  | .infinity negative => if negative then .nan else .infinity false
  | .finite negative significand scale _ =>
    if significand = 0 then .infinity true
    else if negative then .nan
    else if x.units = 2 ^ unitExponent then zero false
    else settle (estimate significand ((scale : Int) - unitExponent))

def log : Binary64 → Binary64 :=
  logarithmBy fun significand exponent precision =>
    ⟨logBits (precision + spareBits) significand exponent / 2 ^ spareBits, -precision⟩

def logBaseTen : Binary64 → Binary64 :=
  logarithmBy fun significand exponent precision =>
    let bits := precision + spareBits
    ⟨logBits bits significand exponent * 2 ^ precision / logTen bits, -precision⟩

end Calculator.Binary64

import Calculator.Binary64.Estimate

namespace Calculator.Binary64

/-- A number of right angles, modulo four, and the sine and the cosine of the rest in multiples of
`2 ^ -bits`. -/
structure Angle where
  quadrant : Int
  sine : Int
  cosine : Int

/-- The angle of `significand * 2 ^ exponent`, which is at least `2 ^ -30`. -/
def Angle.reduce (bits significand : Nat) (exponent : Int) : Angle :=
  let extra := (exponent + significand.log2).toNat + 16
  let fine := bits + extra + 128
  let rightAngle := circle fine / 2
  let angle := shifted significand (exponent + fine)
  let quadrant := nearest angle rightAngle
  let rest := (angle - quadrant * rightAngle) / 2 ^ (extra + 128)
  let one := 2 ^ bits
  let ratio := -(rest * rest).tdiv one
  { quadrant := quadrant % 4
    sine := factorialSeries one ratio (fun k => (2 * k + 2) * (2 * k + 3)) bits 0 rest
    cosine := factorialSeries one ratio (fun k => (2 * k + 1) * (2 * k + 2)) bits 0 one }

def Angle.fullSine (angle : Angle) : Int :=
  if angle.quadrant = 0 then angle.sine
  else if angle.quadrant = 1 then angle.cosine
  else if angle.quadrant = 2 then -angle.sine
  else -angle.cosine

def Angle.fullCosine (angle : Angle) : Int :=
  if angle.quadrant = 0 then angle.cosine
  else if angle.quadrant = 1 then -angle.sine
  else if angle.quadrant = 2 then -angle.cosine
  else angle.sine

/-- A magnitude below `2 ^ -28`: there the sine and the tangent differ from the angle by less than
half a place, and the cosine differs from one by less than that. -/
def isTiny (x : Binary64) : Bool :=
  x.units < 2 ^ (unitExponent - 28)

/-- The value of a function of angles, given its estimates for angles that are not tiny. -/
def ofAngle (tiny : Binary64 → Binary64) (odd : Bool) (estimate : Nat → Int → Nat → Estimate)
    (x : Binary64) : Binary64 :=
  match x with
  | .nan => .nan
  | .infinity _ => .nan
  | .finite negative significand scale _ =>
    if x.isTiny then tiny x
    else
      let result := settle (estimate significand ((scale : Int) - unitExponent))
      if odd && negative then result.neg else result

def sin : Binary64 → Binary64 :=
  ofAngle id true fun significand exponent precision =>
    let angle := Angle.reduce (precision + spareBits) significand exponent
    ⟨angle.fullSine / 2 ^ spareBits, -precision⟩

def cos : Binary64 → Binary64 :=
  ofAngle (fun _ => ofInt 1) false fun significand exponent precision =>
    let angle := Angle.reduce (precision + spareBits) significand exponent
    ⟨angle.fullCosine / 2 ^ spareBits, -precision⟩

/-- The tangent of an angle in radians; a sine or a cosine close to zero costs at most twice
sixty-four bits of the quotient. -/
def tan : Binary64 → Binary64 :=
  ofAngle id true fun significand exponent precision =>
    let angle := Angle.reduce (precision + 3 * spareBits) significand exponent
    ⟨angle.fullSine * 2 ^ precision / angle.fullCosine, -precision⟩

end Calculator.Binary64

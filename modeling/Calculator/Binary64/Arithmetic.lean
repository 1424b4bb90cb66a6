import Calculator.Binary64.Rounding

namespace Calculator.Binary64

/-- The sum. An exact zero is positive unless both terms are negative. -/
def add (x y : Binary64) : Binary64 :=
  match x, y with
  | .nan, _ => .nan
  | _, .nan => .nan
  | .infinity negative, .infinity other => if negative = other then .infinity negative else .nan
  | .infinity negative, .finite .. => .infinity negative
  | .finite .., .infinity negative => .infinity negative
  | .finite .., .finite .. =>
    let total := x.signedUnits + y.signedUnits
    if total = 0 then zero (x.isNegative && y.isNegative)
    else ofUnits (decide (total < 0)) total.natAbs 1

def sub (x y : Binary64) : Binary64 :=
  x.add y.neg

/-- The product; infinity times zero is nan. -/
def mul (x y : Binary64) : Binary64 :=
  let negative := x.isNegative != y.isNegative
  match x, y with
  | .nan, _ => .nan
  | _, .nan => .nan
  | .infinity _, _ => if y.isZero then .nan else .infinity negative
  | _, .infinity _ => if x.isZero then .nan else .infinity negative
  | .finite .., .finite .. => ofUnits negative (x.units * y.units) (2 ^ unitExponent)

/-- The quotient. Zero divided by zero and infinity by infinity are nan; anything else divided by
zero is an infinity whose sign follows both signs. -/
def div (x y : Binary64) : Binary64 :=
  let negative := x.isNegative != y.isNegative
  match x, y with
  | .nan, _ => .nan
  | _, .nan => .nan
  | .infinity _, .infinity _ => .nan
  | .infinity _, .finite .. => .infinity negative
  | .finite .., .infinity _ => zero negative
  | .finite .., .finite .. =>
    if y.isZero then if x.isZero then .nan else .infinity negative
    else ofUnits negative (x.units * 2 ^ unitExponent) y.units

/-- The square root. The integer root of the units, doubled and made odd when it is not exact, lies
on the same side of every rounding boundary as the root itself. -/
def sqrt (x : Binary64) : Binary64 :=
  if x.isZero then x
  else if x.isNegative then .nan
  else
    match x with
    | .finite .. =>
      let square := x.units * 2 ^ unitExponent
      let root := square.sqrt
      ofUnits false (2 * root + if root * root = square then 0 else 1) 2
    | other => other

end Calculator.Binary64

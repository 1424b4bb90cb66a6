import Calculator.Binary64.Integral
import Calculator.Binary64.Power

/-! Operations on numbers that can fail. Where there is no number to give, these raise a fault and
leave it to their caller what becomes of it. -/

namespace Calculator

/-- Why an operation outside the language failed. -/
structure Fault where
  kind : String
  message : String
deriving DecidableEq

namespace Fault

def zeroDivision : Fault := ⟨"ZeroDivisionError", "float division by zero"⟩

/-- An argument for which the operation has no value. -/
def domain : Fault := ⟨"ValueError", "math domain error"⟩

/-- A value beyond the greatest number. -/
def range : Fault := ⟨"OverflowError", "math range error"⟩

def integerOfNaN : Fault := ⟨"ValueError", "cannot convert float NaN to integer"⟩

def integerOfInfinity : Fault := ⟨"OverflowError", "cannot convert float infinity to integer"⟩

end Fault

namespace Binary64

/-- The quotient, unless the divisor is zero. -/
def checkedDiv (x y : Binary64) : Except Fault Binary64 :=
  if y.isZero then .error .zeroDivision else .ok (x.div y)

/-- The value of an operation, unless it is nan for a number, or infinite for a finite one. -/
def checked (operation : Binary64 → Binary64) (x : Binary64) : Except Fault Binary64 :=
  let result := operation x
  if result.isNaN && !x.isNaN || !result.isFinite && x.isFinite then .error .domain
  else .ok result

/-- The power, unless it is nan or infinite for a finite base and a finite exponent. -/
def checkedPow (x y : Binary64) : Except Fault Binary64 :=
  let result := x.pow y
  if result.isFinite || !x.isFinite || !y.isFinite then .ok result
  else if result.isNaN || x.isZero then .error .domain
  else .error .range

/-- An exact integer near a number, unless the number is nan or infinite. -/
def checkedInteger (operation : Binary64 → Int) : Binary64 → Except Fault Int
  | .nan => .error .integerOfNaN
  | .infinity _ => .error .integerOfInfinity
  | x => .ok (operation x)

end Binary64

end Calculator

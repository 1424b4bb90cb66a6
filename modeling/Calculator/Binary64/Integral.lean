import Calculator.Binary64.Arithmetic

namespace Calculator.Binary64

/-- The greatest integer that is not above a finite number. -/
def floorInt (x : Binary64) : Int :=
  x.signedUnits / 2 ^ unitExponent

/-- The least integer that is not below a finite number. -/
def ceilInt (x : Binary64) : Int :=
  -(-x.signedUnits / 2 ^ unitExponent)

def truncInt (x : Binary64) : Int :=
  x.signedUnits.tdiv (2 ^ unitExponent)

def half : Binary64 :=
  .finite false (2 ^ 52) 1021 (by decide)

end Calculator.Binary64

import Calculator.Binary64.Rounding

namespace Calculator.Standard

/-- A random number from zero up to, but not including, one: a multiple of `2 ^ -53`. -/
def draw (generator : StdGen) : Binary64 × StdGen :=
  let (n, generator) := randNat generator 0 (2 ^ 53 - 1)
  (.ofQuotient false n (2 ^ 53), generator)

end Calculator.Standard

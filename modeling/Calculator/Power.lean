/-! Powers of numbers. Wherever a power is written, it is the one that the type of its base defines
for natural exponents, whatever other powers are in scope. -/

namespace Calculator

@[default_instance 20000]
instance (priority := 20000) naturalPower {α : Type} [NatPow α] : Pow α Nat :=
  instPowNat

end Calculator

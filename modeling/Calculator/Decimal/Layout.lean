import Calculator.Decimal.Shortest

/-! The text of a number: its shortest digits, written out with a point while the leading digit
stands between the sixth place after the point and the twenty-first before it, and with an exponent
of ten otherwise. -/

namespace Calculator

namespace Decimal

/-- The most digits that are written before a point. -/
def wholeLimit : Int := 21

/-- Fewer zeros than this stand between a point and the first digit. -/
def fractionLimit : Int := 6

/-- The digits of a number in base ten, the first one first. -/
def digitChars (n : Nat) : List Char :=
  Nat.toDigits 10 n

/-- Digits with an exponent of ten, which counts from behind the first digit. -/
def scientific (digits : List Char) (exponent : Int) : List Char :=
  let mantissa :=
    match digits with
    | [] => []
    | [digit] => [digit]
    | digit :: more => digit :: '.' :: more
  mantissa ++ 'e' :: (if 0 ≤ exponent then '+' else '-') :: digitChars exponent.natAbs

/-- Digits times ten to the exponent, as a text. -/
def layout (digits : List Char) (exponent : Int) : List Char :=
  let point := exponent + digits.length
  if (digits.length : Int) ≤ point ∧ point ≤ wholeLimit then
    digits ++ List.replicate exponent.toNat '0'
  else if 0 < point ∧ point ≤ wholeLimit then
    digits.take point.toNat ++ '.' :: digits.drop point.toNat
  else if -fractionLimit < point ∧ point ≤ 0 then
    '0' :: '.' :: (List.replicate (-point).toNat '0' ++ digits)
  else scientific digits (point - 1)

def chars (decimal : Decimal) : List Char :=
  layout (digitChars decimal.digits) decimal.exponent

end Decimal

namespace Binary64

/-- The characters of a number; both zeros are written alike. -/
def chars (x : Binary64) : List Char :=
  match x with
  | .nan => "NaN".toList
  | .infinity negative => (if negative then "-Infinity" else "Infinity").toList
  | .finite negative significand _ _ =>
    if significand = 0 then ['0']
    else
      let text := (Decimal.shortest x).chars
      if negative then '-' :: text else text

def text (x : Binary64) : String :=
  String.ofList x.chars

end Binary64

end Calculator

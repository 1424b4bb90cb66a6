import Calculator.Text.Blank
import Calculator.Text.DecimalDigit

namespace Calculator.Text

/-- The digit values of a run of digits in which single underscores may separate two digits. -/
def digitRun? : List Char → Option (List Nat)
  | [] => none
  | [c] => (digitValue? c).map ([·])
  | c :: '_' :: rest =>
    match digitValue? c, digitRun? rest with
    | some value, some values => some (value :: values)
    | _, _ => none
  | c :: rest =>
    match digitValue? c, digitRun? rest with
    | some value, some values => some (value :: values)
    | _, _ => none

def maxIntegerDigits : Nat := 4300

def natural? (chars : List Char) : Option Nat :=
  match digitRun? chars with
  | none => none
  | some values =>
    if maxIntegerDigits < values.length then none
    else some (values.foldl (fun total digit => 10 * total + digit) 0)

/-- A blank that may stand around an integer: the ASCII separators may not. -/
def isPadding (c : Char) : Bool :=
  isBlank c && !(0x1C ≤ c.toNat && c.toNat ≤ 0x1F)

/-- The integer that a text denotes, if it denotes one. -/
def integer? (text : String) : Option Int :=
  match trimChars isPadding text.toList with
  | '-' :: digits => (natural? digits).map fun n => -(n : Int)
  | '+' :: digits => (natural? digits).map Int.ofNat
  | digits => (natural? digits).map Int.ofNat

end Calculator.Text

import Calculator.Decimal.Layout
import Calculator.Proofs.Decimal.Shortest
import Calculator.Proofs.Token.Shape
import Calculator.Statement.Reader

namespace Calculator

open Token (Shape isDigit span_append)

namespace Reader

theorem digitsValue_eq (digits : List Char) :
    digitsValue digits = Nat.ofDigitChars 10 digits 0 :=
  rfl

theorem digitsValue_append_zeros (digits : List Char) (count : Nat) :
    digitsValue (digits ++ List.replicate count '0') = 10 ^ count * digitsValue digits := by
  rw [digitsValue_eq, digitsValue_eq, Nat.ofDigitChars_append, Nat.ofDigitChars_replicate_zero]

theorem digitsValue_zeros_append (count : Nat) (digits : List Char) :
    digitsValue (List.replicate count '0' ++ digits) = digitsValue digits := by
  rw [digitsValue_eq, digitsValue_eq, Nat.ofDigitChars_append, Nat.ofDigitChars_replicate_zero,
    Nat.mul_zero]

section Literal

variable {digits : List Char} (all : ∀ c ∈ digits, isDigit c = true)

include all

private theorem ne_point : ∀ c ∈ digits, decide (c ≠ '.') = true := by
  intro c member
  rw [decide_eq_true_iff]
  rintro rfl
  exact absurd (all '.' member) (by decide)

theorem literal_whole :
    literal (String.ofList digits) = .ofDecimal (digitsValue digits) 0 := by
  have outside : ∀ c ∈ ([] : List Char).head?, decide (c ≠ '.') = false := by simp
  obtain ⟨taken, dropped⟩ := span_append (ne_point all) outside
  rw [List.append_nil] at taken dropped
  simp only [literal, String.toList_ofList, taken, dropped, List.tail_nil, List.append_nil]
  rfl

theorem literal_pointed (fraction : List Char) :
    literal (String.ofList (digits ++ '.' :: fraction)) =
      .ofDecimal (digitsValue (digits ++ fraction)) (-(fraction.length : Int)) := by
  have outside : ∀ c ∈ ('.' :: fraction).head?, decide (c ≠ '.') = false := by simp
  obtain ⟨taken, dropped⟩ := span_append (ne_point all) outside
  simp only [literal, String.toList_ofList, taken, dropped, List.tail_cons]

end Literal

end Reader

namespace Decimal

theorem isDigit_of_mem_digitChars (n : Nat) : ∀ c ∈ digitChars n, isDigit c = true := by
  intro c member
  have digit := Nat.isDigit_of_mem_toDigits (by decide) (by decide) member
  simpa [Char.isDigit, isDigit, Char.le_def] using digit

theorem isDigit_of_mem_zeros {count : Nat} :
    ∀ c ∈ List.replicate count '0', isDigit c = true := by
  intro c member
  rw [List.eq_of_mem_replicate member]
  decide

theorem digitsValue_digitChars (n : Nat) : Reader.digitsValue (digitChars n) = n :=
  Nat.ofDigitChars_ten_toDigits

theorem digitChars_ne_nil (n : Nat) : digitChars n ≠ [] :=
  Nat.toDigits_ne_nil

theorem digitChars_injective {n m : Nat} (same : digitChars n = digitChars m) : n = m := by
  rw [← digitsValue_digitChars n, same, digitsValue_digitChars]

/-- The characters are one number token, and it reads as the decimal does. -/
structure Spells (chars : List Char) (decimal : Decimal) : Prop where
  shape : Shape .number chars
  literal : Reader.literal (String.ofList chars) = decimal.toBinary64

section Spelling

variable {digits : Nat} {exponent : Int}

private theorem spells_whole (whole : 0 ≤ exponent) :
    Spells (digitChars digits ++ List.replicate exponent.toNat '0') ⟨digits, exponent⟩ := by
  have all : ∀ c ∈ digitChars digits ++ List.replicate exponent.toNat '0', isDigit c = true :=
    List.forall_mem_append.mpr ⟨isDigit_of_mem_digitChars digits, isDigit_of_mem_zeros⟩
  refine ⟨.whole (by simp [digitChars_ne_nil]) all, ?_⟩
  obtain ⟨places, rfl⟩ := Int.eq_ofNat_of_zero_le whole
  rw [Reader.literal_whole all, Reader.digitsValue_append_zeros, digitsValue_digitChars, toBinary64]
  apply Binary64.ofDecimal_congr
  push_cast
  rw [zpow_natCast, Int.toNat_natCast]
  ring

private theorem spells_inner {before : Nat} (some : 0 < before)
    (place : exponent + (digitChars digits).length = before)
    (inner : before < (digitChars digits).length) :
    Spells ((digitChars digits).take before ++ '.' :: (digitChars digits).drop before)
      ⟨digits, exponent⟩ := by
  have all := isDigit_of_mem_digitChars digits
  have taken : ∀ c ∈ (digitChars digits).take before, isDigit c = true :=
    fun c member => all c (List.mem_of_mem_take member)
  have dropped : ∀ c ∈ (digitChars digits).drop before, isDigit c = true :=
    fun c member => all c (List.mem_of_mem_drop member)
  have present : (digitChars digits).take before ≠ [] := by
    rw [ne_eq, List.take_eq_nil_iff]
    simp [some.ne', digitChars_ne_nil]
  refine ⟨.pointed present taken dropped, ?_⟩
  have places : -(((digitChars digits).drop before).length : Int) = exponent := by
    rw [List.length_drop]
    omega
  rw [Reader.literal_pointed taken, List.take_append_drop, digitsValue_digitChars, places]
  rfl

private theorem spells_small {zeros : Nat}
    (place : exponent + (digitChars digits).length = -(zeros : Int)) :
    Spells ('0' :: '.' :: (List.replicate zeros '0' ++ digitChars digits)) ⟨digits, exponent⟩ := by
  have first : ∀ c ∈ ['0'], isDigit c = true := List.forall_mem_singleton.mpr (by decide)
  have all : ∀ c ∈ List.replicate zeros '0' ++ digitChars digits, isDigit c = true :=
    List.forall_mem_append.mpr ⟨isDigit_of_mem_zeros, isDigit_of_mem_digitChars digits⟩
  refine ⟨.pointed (by simp) first all, ?_⟩
  have places : -((List.replicate zeros '0' ++ digitChars digits).length : Int) = exponent := by
    rw [List.length_append, List.length_replicate]
    omega
  have value : Reader.digitsValue (['0'] ++ (List.replicate zeros '0' ++ digitChars digits)) =
      digits := by
    rw [← List.replicate_one, Reader.digitsValue_zeros_append, Reader.digitsValue_zeros_append,
      digitsValue_digitChars]
  have read := Reader.literal_pointed first (List.replicate zeros '0' ++ digitChars digits)
  rw [value, places] at read
  exact read

end Spelling

/-- Whether a decimal is written out with a point. -/
def Positional (decimal : Decimal) : Prop :=
  -fractionLimit < decimal.point ∧ decimal.point ≤ wholeLimit

theorem spells_of_positional {decimal : Decimal} (positional : decimal.Positional) :
    Spells decimal.chars decimal := by
  obtain ⟨digits, exponent⟩ := decimal
  obtain ⟨low, high⟩ : -fractionLimit < exponent + (digitChars digits).length ∧
    exponent + (digitChars digits).length ≤ wholeLimit := positional
  simp only [chars, layout]
  by_cases whole : ((digitChars digits).length : Int) ≤ exponent + (digitChars digits).length
  · rw [if_pos ⟨whole, high⟩]
    exact spells_whole (by omega)
  rw [if_neg (fun both => whole both.1)]
  by_cases inner : 0 < exponent + (digitChars digits).length
  · rw [if_pos ⟨inner, high⟩]
    exact spells_inner (by omega) (by omega) (by omega)
  · rw [if_neg (fun both => inner both.1), if_pos ⟨low, by omega⟩]
    exact spells_small (by omega)

theorem chars_of_not_positional {decimal : Decimal} (other : ¬decimal.Positional) :
    decimal.chars = scientific (digitChars decimal.digits) (decimal.point - 1) := by
  obtain ⟨digits, exponent⟩ := decimal
  have outside : ¬(-fractionLimit < exponent + (digitChars digits).length ∧
    exponent + (digitChars digits).length ≤ wholeLimit) := other
  have limits : 0 < fractionLimit ∧ 0 < wholeLimit := by decide
  have present := List.length_pos_of_ne_nil (digitChars_ne_nil digits)
  simp only [chars, layout]
  rw [if_neg (by omega), if_neg (by omega), if_neg (by omega)]
  rfl

/-- The digits of a text with an exponent: a point stands behind the first of several. -/
def mantissa : List Char → List Char
  | [] => []
  | [digit] => [digit]
  | digit :: more => digit :: '.' :: more

/-- What follows the digits in a text with an exponent. -/
def exponentChars (exponent : Int) : List Char :=
  (if 0 ≤ exponent then '+' else '-') :: digitChars exponent.natAbs

theorem scientific_eq (digits : List Char) (exponent : Int) :
    scientific digits exponent = mantissa digits ++ 'e' :: exponentChars exponent := by
  rcases digits with _ | ⟨digit, _ | ⟨next, more⟩⟩ <;> rfl

section Mantissa

variable {digits : List Char} (present : digits ≠ []) (all : ∀ c ∈ digits, isDigit c = true)

include present all

/-- The digits of a text with an exponent are a number token. -/
theorem shape_mantissa : Shape .number (mantissa digits) := by
  rcases digits with _ | ⟨digit, _ | ⟨next, more⟩⟩
  · exact absurd rfl present
  · exact .whole (List.cons_ne_nil digit []) all
  · obtain ⟨first, places⟩ := List.forall_mem_cons.mp all
    exact .pointed (List.cons_ne_nil digit []) (List.forall_mem_singleton.mpr first) places

omit present in
theorem ne_e_of_mem_mantissa : ∀ c ∈ mantissa digits, c ≠ 'e' := by
  have different : ∀ c ∈ digits, c ≠ 'e' := by
    rintro c member rfl
    exact absurd (all 'e' member) (by decide)
  rcases digits with _ | ⟨digit, _ | ⟨next, more⟩⟩
  · simp [mantissa]
  · exact different
  · obtain ⟨first, places⟩ := List.forall_mem_cons.mp different
    exact List.forall_mem_cons.mpr ⟨first, List.forall_mem_cons.mpr ⟨by decide, places⟩⟩

end Mantissa

theorem mantissa_injective {digits others : List Char} (same : mantissa digits = mantissa others) :
    digits = others := by
  rcases digits with _ | ⟨digit, _ | ⟨next, more⟩⟩ <;>
    rcases others with _ | ⟨other, _ | ⟨further, rest⟩⟩ <;>
    simp_all [mantissa]

theorem exponentChars_injective {exponent other : Int}
    (same : exponentChars exponent = exponentChars other) : exponent = other := by
  obtain ⟨sign, magnitude⟩ := List.cons.inj same
  have equal := digitChars_injective magnitude
  split_ifs at sign <;> first | omega | exact absurd sign (by decide)

theorem span_scientific {digits : List Char} (all : ∀ c ∈ digits, isDigit c = true)
    (exponent : Int) :
    (scientific digits exponent).takeWhile (· ≠ 'e') = mantissa digits ∧
      (scientific digits exponent).dropWhile (· ≠ 'e') = 'e' :: exponentChars exponent := by
  have inside : ∀ c ∈ mantissa digits, decide (c ≠ 'e') = true :=
    fun c member => decide_eq_true (ne_e_of_mem_mantissa all c member)
  have outside : ∀ c ∈ ('e' :: exponentChars exponent).head?, decide (c ≠ 'e') = false := by simp
  rw [scientific_eq]
  exact span_append inside outside

theorem exists_digit (decimal : Decimal) :
    ∃ c more, decimal.chars = c :: more ∧ isDigit c = true := by
  by_cases positional : decimal.Positional
  · exact (spells_of_positional positional).shape.exists_digit
  · obtain ⟨c, more, split, digit⟩ := (shape_mantissa (digitChars_ne_nil decimal.digits)
      (isDigit_of_mem_digitChars decimal.digits)).exists_digit
    rw [chars_of_not_positional positional, scientific_eq, split]
    exact ⟨c, _, rfl, digit⟩

/-- A text with an exponent tells the decimal it was made from. -/
theorem eq_of_chars_eq {decimal other : Decimal} (scaled : ¬decimal.Positional)
    (otherScaled : ¬other.Positional) (same : decimal.chars = other.chars) : decimal = other := by
  rw [chars_of_not_positional scaled, chars_of_not_positional otherScaled] at same
  obtain ⟨taken, dropped⟩ := span_scientific (isDigit_of_mem_digitChars decimal.digits)
    (decimal.point - 1)
  obtain ⟨otherTaken, otherDropped⟩ :=
    span_scientific (isDigit_of_mem_digitChars other.digits) (other.point - 1)
  rw [same] at taken dropped
  have digits : decimal.digits = other.digits :=
    digitChars_injective (mantissa_injective (taken.symm.trans otherTaken))
  have exponents : decimal.point - 1 = other.point - 1 :=
    exponentChars_injective (List.cons.inj (dropped.symm.trans otherDropped)).2
  obtain ⟨digits, exponent⟩ := decimal
  obtain ⟨otherDigits, otherExponent⟩ := other
  simp only [point] at digits exponents
  subst digits
  simp only [mk.injEq, true_and]
  omega

end Decimal

/-- A number is written with a digit, a minus sign or a capital in front. -/
theorem Binary64.head_chars (x : Binary64) :
    ∀ c ∈ x.chars.head?, isDigit c = true ∨ c ∈ ['-', 'N', 'I'] := by
  obtain ⟨c, more, split, digit⟩ := (Decimal.shortest x).exists_digit
  rcases x with _ | (_ | _) | ⟨negative, significand, exponent, canonical⟩
  · simp [chars]
  · simp [chars]
  · simp [chars]
  · by_cases zero : significand = 0
    · simp [chars, zero, isDigit]
    · cases negative <;> simp [chars, zero, split, digit]

end Calculator

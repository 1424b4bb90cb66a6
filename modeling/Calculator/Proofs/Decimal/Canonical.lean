import Calculator.Proofs.Decimal.Minimality
import Calculator.Proofs.Decimal.RoundTrip

/-!
Numerals: what a text of digits, a point and an exponent denotes, and which such texts leave out all
that can be left out. The layout of a decimal is such a text and denotes the decimal, so that no two
decimals have one layout.
-/

namespace Calculator

open Token (isDigit span_append)

namespace Reader

theorem digitsValue_append (first second : List Char) :
    digitsValue (first ++ second) =
      10 ^ second.length * digitsValue first + digitsValue second := by
  rw [digitsValue_eq, digitsValue_eq, digitsValue_eq, Nat.ofDigitChars_append,
    Nat.ofDigitChars_eq_ofDigitChars_zero]

end Reader

open Reader (digitsValue digitsValue_append)

namespace Decimal

section Digits

variable {n : Nat}

theorem exists_digitChar {c : Char} (digit : isDigit c = true) : ∃ n < 10, n.digitChar = c := by
  obtain ⟨low, high⟩ := Token.isDigit_iff.mp digit
  have codes : ∀ n < 10, n.digitChar.toNat = 48 + n := by decide
  refine ⟨c.toNat - 48, by omega, Char.toNat_inj.mp ?_⟩
  rw [codes _ (by omega)]
  omega

theorem digitsValue_digitChar (small : n < 10) : digitsValue [n.digitChar] = n := by
  have values : ∀ n < 10, digitsValue [n.digitChar] = n := by decide
  exact values n small

theorem digitChar_eq_zero_iff (small : n < 10) : n.digitChar = '0' ↔ n = 0 := by
  have zeros : ∀ n < 10, n.digitChar = '0' ↔ n = 0 := by decide
  exact zeros n small

theorem head_digitChars (positive : 0 < n) : (digitChars n).head? ≠ some '0' := by
  induction n using Nat.strong_induction_on with
  | _ n ih =>
    rw [digitChars, Nat.toDigits_eq_if (by decide)]
    split
    next small =>
      rw [List.head?_singleton, ne_eq, Option.some_inj, digitChar_eq_zero_iff small]
      omega
    next large =>
      rw [List.head?_append_of_ne_nil _ Nat.toDigits_ne_nil]
      exact ih (n / 10) (by omega) (by omega)

theorem getLast_digitChars (n : Nat) : (digitChars n).getLast? = some (n % 10).digitChar := by
  rw [digitChars, Nat.toDigits_eq_if (by decide)]
  split
  next small => rw [Nat.mod_eq_of_lt small, List.getLast?_singleton]
  next large => rw [List.getLast?_append, List.getLast?_singleton, Option.some_or]

end Digits

/-- Digits without a zero at either end. -/
structure Normal (digits : List Char) : Prop where
  present : digits ≠ []
  all : ∀ c ∈ digits, isDigit c = true
  first : digits.head? ≠ some '0'
  last : digits.getLast? ≠ some '0'

theorem normal_digitChars {n : Nat} (ended : n % 10 ≠ 0) : Normal (digitChars n) where
  present := digitChars_ne_nil n
  all := isDigit_of_mem_digitChars n
  first := head_digitChars (by omega)
  last := by
    rw [getLast_digitChars, ne_eq, Option.some_inj, digitChar_eq_zero_iff (by omega)]
    exact ended

theorem digitChars_digitsValue {digits : List Char} (present : digits ≠ [])
    (all : ∀ c ∈ digits, isDigit c = true) (first : digits.head? ≠ some '0') :
    digitChars (digitsValue digits) = digits := by
  induction digits using List.reverseRecOn with
  | nil => exact absurd rfl present
  | append_singleton digits c ih =>
    obtain ⟨before, digit⟩ := List.forall_mem_append.mp all
    obtain ⟨n, small, rfl⟩ := exists_digitChar (digit c (List.mem_singleton_self c))
    have single : digitChars n = [n.digitChar] := Nat.toDigits_of_lt_base small
    rcases digits with _ | ⟨lead, more⟩
    · rw [List.nil_append, digitsValue_digitChar small, single]
    · have shorter := ih (by simp) before first
      have positive : 0 < digitsValue (lead :: more) := by
        rw [Nat.pos_iff_ne_zero]
        intro none
        rw [none] at shorter
        obtain ⟨rfl, rfl⟩ := List.cons.inj shorter
        exact first rfl
      have joined := Nat.toDigits_append_toDigits (by decide : 1 < 10) positive small
      rw [digitsValue_append, digitsValue_digitChar small, List.length_singleton, pow_one,
        digitChars, ← joined]
      exact congrArg₂ (· ++ ·) shorter single

namespace Normal

variable {digits : List Char} (normal : Normal digits)

include normal

theorem digitChars_digitsValue : digitChars (digitsValue digits) = digits :=
  Decimal.digitChars_digitsValue normal.present normal.all normal.first

theorem digitsValue_mod_ten : digitsValue digits % 10 ≠ 0 := by
  have last := normal.last
  rw [← normal.digitChars_digitsValue, getLast_digitChars, ne_eq, Option.some_inj,
    digitChar_eq_zero_iff (by omega)] at last
  exact last

theorem layout_eq (exponent : Int) :
    layout digits exponent = (⟨digitsValue digits, exponent⟩ : Decimal).chars := by
  rw [chars, normal.digitChars_digitsValue]

theorem head_layout (exponent : Int) :
    ∀ c ∈ (layout digits exponent).head?, isDigit c = true := by
  obtain ⟨c, more, split, digit⟩ := exists_digit ⟨digitsValue digits, exponent⟩
  rw [normal.layout_eq, split]
  simpa using digit

end Normal

/-- The four ways to lay digits out. -/
inductive Laid (digits : List Char) (exponent : Int) : List Char → Prop
  | whole {zeros : Nat} (places : exponent = zeros)
      (few : exponent + digits.length ≤ wholeLimit) :
      Laid digits exponent (digits ++ List.replicate zeros '0')
  | inner {first second : List Char} (split : digits = first ++ second) (before : first ≠ [])
      (behind : second ≠ []) (places : exponent = -(second.length : Int))
      (few : exponent + digits.length ≤ wholeLimit) :
      Laid digits exponent (first ++ '.' :: second)
  | small {zeros : Nat} (places : exponent + digits.length = -(zeros : Int))
      (few : (zeros : Int) < fractionLimit) :
      Laid digits exponent ('0' :: '.' :: (List.replicate zeros '0' ++ digits))
  | scaled (other : ¬(-fractionLimit < exponent + digits.length ∧
        exponent + digits.length ≤ wholeLimit)) :
      Laid digits exponent (mantissa digits ++ 'e' :: exponentChars (exponent + digits.length - 1))

theorem laid_layout {digits : List Char} (present : digits ≠ []) (exponent : Int) :
    Laid digits exponent (layout digits exponent) := by
  have some := List.length_pos_of_ne_nil present
  have limits : 0 < fractionLimit ∧ 0 < wholeLimit := by decide
  simp only [layout]
  split_ifs with whole inner small
  · exact .whole (by omega) whole.2
  · have shorter : (exponent + digits.length).toNat < digits.length := by omega
    refine .inner (List.take_append_drop _ digits).symm ?_ ?_ ?_ inner.2
    · rw [ne_eq, List.take_eq_nil_iff]
      simp only [present, or_false]
      omega
    · rw [ne_eq, List.drop_eq_nil_iff]
      omega
    · rw [List.length_drop]
      omega
  · exact .small (by omega) (by omega)
  · rw [scientific_eq]
    exact .scaled (by omega)

end Decimal

theorem ne_e_of_isDigit {digits : List Char} (all : ∀ c ∈ digits, isDigit c = true) :
    ∀ c ∈ digits, c ≠ 'e' := by
  rintro c member rfl
  exact absurd (all 'e' member) (by decide)

namespace Numeral

open Decimal (mantissa exponentChars digitChars)

/-- The value of digits with at most one point among them. -/
def pointed (chars : List Char) : ℚ :=
  let whole := chars.takeWhile (· ≠ '.')
  let places := (chars.dropWhile (· ≠ '.')).tail
  digitsValue whole + digitsValue places / 10 ^ places.length

def exponent : List Char → Int
  | [] => 0
  | sign :: digits => if sign = '-' then -digitsValue digits else digitsValue digits

def magnitude (chars : List Char) : ℚ :=
  pointed (chars.takeWhile (· ≠ 'e')) * 10 ^ exponent (chars.dropWhile (· ≠ 'e')).tail

def value : List Char → ℚ
  | [] => 0
  | first :: chars => if first = '-' then -magnitude chars else magnitude (first :: chars)

section Values

variable {digits : List Char} (all : ∀ c ∈ digits, isDigit c = true)

include all

private theorem ne_of_all {c : Char} (other : isDigit c = false) :
    ∀ digit ∈ digits, decide (digit ≠ c) = true := by
  intro digit member
  rw [decide_eq_true_iff]
  rintro rfl
  exact absurd (all digit member) (by simp [other])

theorem pointed_of_point (places : List Char) :
    pointed (digits ++ '.' :: places) = digitsValue (digits ++ places) / 10 ^ places.length := by
  have outside : ∀ c ∈ ('.' :: places).head?, decide (c ≠ '.') = false := by simp
  obtain ⟨taken, dropped⟩ := span_append (ne_of_all all (by decide)) outside
  simp only [pointed, taken, dropped, List.tail_cons]
  rw [digitsValue_append]
  push_cast
  field_simp

theorem pointed_of_digits : pointed digits = digitsValue digits := by
  have none : ∀ c ∈ ([] : List Char).head?, decide (c ≠ '.') = false := by simp
  obtain ⟨taken, dropped⟩ := span_append (ne_of_all all (by decide)) none
  rw [List.append_nil] at taken dropped
  simp only [pointed, taken, dropped, List.tail_nil]
  simp [digitsValue]

omit all in
theorem magnitude_of_exponent {chars : List Char} (plain : ∀ c ∈ chars, c ≠ 'e')
    (tail : List Char) :
    magnitude (chars ++ 'e' :: tail) = pointed chars * 10 ^ exponent tail := by
  have inside : ∀ c ∈ chars, decide (c ≠ 'e') = true :=
    fun c member => decide_eq_true (plain c member)
  have outside : ∀ c ∈ ('e' :: tail).head?, decide (c ≠ 'e') = false := by simp
  obtain ⟨taken, dropped⟩ := span_append inside outside
  rw [magnitude, taken, dropped, List.tail_cons]

omit all in
theorem magnitude_of_plain {chars : List Char} (plain : ∀ c ∈ chars, c ≠ 'e') :
    magnitude chars = pointed chars := by
  have inside : ∀ c ∈ chars, decide (c ≠ 'e') = true :=
    fun c member => decide_eq_true (plain c member)
  have none : ∀ c ∈ ([] : List Char).head?, decide (c ≠ 'e') = false := by simp
  obtain ⟨taken, dropped⟩ := span_append inside none
  rw [List.append_nil] at taken dropped
  rw [magnitude, taken, dropped]
  simp [exponent]

end Values

theorem exponent_exponentChars (scale : Int) : exponent (exponentChars scale) = scale := by
  rw [exponentChars, exponent, Decimal.digitsValue_digitChars]
  split_ifs with positive minus minus
  · exact absurd minus (by decide)
  · omega
  · omega
  · exact absurd rfl minus

theorem pointed_mantissa {digits : List Char} (present : digits ≠ [])
    (all : ∀ c ∈ digits, isDigit c = true) :
    pointed (mantissa digits) = digitsValue digits / 10 ^ (digits.length - 1) := by
  rcases digits with _ | ⟨digit, _ | ⟨next, more⟩⟩
  · exact absurd rfl present
  · simpa [mantissa] using pointed_of_digits all
  · obtain ⟨first, -⟩ := List.forall_mem_cons.mp all
    exact pointed_of_point (List.forall_mem_singleton.mpr first) (next :: more)

/-- The layout of digits denotes them, at the places that the exponent says. -/
theorem magnitude_layout {digits : List Char} (present : digits ≠ [])
    (all : ∀ c ∈ digits, isDigit c = true) (places : Int) :
    magnitude (Decimal.layout digits places) = digitsValue digits * 10 ^ places := by
  have some := List.length_pos_of_ne_nil present
  have ten : (10 : ℚ) ≠ 0 := by norm_num
  have laid := Decimal.laid_layout present places
  generalize Decimal.layout digits places = chars at laid ⊢
  cases laid with
  | @whole zeros exact few =>
    have padded : ∀ c ∈ digits ++ List.replicate zeros '0', isDigit c = true :=
      List.forall_mem_append.mpr ⟨all, Decimal.isDigit_of_mem_zeros⟩
    rw [magnitude_of_plain (ne_e_of_isDigit padded),
      pointed_of_digits padded, Reader.digitsValue_append_zeros, exact, zpow_natCast]
    push_cast
    ring
  | @inner first second split before behind exact few =>
    obtain ⟨firstAll, secondAll⟩ := List.forall_mem_append.mp (split ▸ all)
    have unscaled : ∀ c ∈ first ++ '.' :: second, c ≠ 'e' := by
      refine List.forall_mem_append.mpr ⟨ne_e_of_isDigit firstAll, ?_⟩
      exact List.forall_mem_cons.mpr ⟨by decide, ne_e_of_isDigit secondAll⟩
    rw [magnitude_of_plain unscaled, pointed_of_point firstAll, ← split, exact, zpow_neg,
      zpow_natCast]
    rfl
  | @small zeros exact few =>
    have first : ∀ c ∈ ['0'], isDigit c = true := List.forall_mem_singleton.mpr (by decide)
    have padded : ∀ c ∈ List.replicate zeros '0' ++ digits, isDigit c = true :=
      List.forall_mem_append.mpr ⟨Decimal.isDigit_of_mem_zeros, all⟩
    have unscaled : ∀ c ∈ '0' :: '.' :: (List.replicate zeros '0' ++ digits), c ≠ 'e' := by
      refine List.forall_mem_cons.mpr ⟨by decide, List.forall_mem_cons.mpr ⟨by decide, ?_⟩⟩
      exact ne_e_of_isDigit padded
    have split := pointed_of_point first (List.replicate zeros '0' ++ digits)
    rw [← List.replicate_one, Reader.digitsValue_zeros_append, Reader.digitsValue_zeros_append]
      at split
    have width : places = -((List.replicate zeros '0' ++ digits).length : Int) := by
      rw [List.length_append, List.length_replicate]
      omega
    rw [magnitude_of_plain unscaled, width, zpow_neg, zpow_natCast]
    exact split
  | scaled other =>
    have unscaled := Decimal.ne_e_of_mem_mantissa all
    have shifted : places + digits.length - 1 = places + ((digits.length - 1 : Nat) : Int) := by
      omega
    rw [magnitude_of_exponent unscaled, pointed_mantissa present all, exponent_exponentChars,
      shifted, zpow_add₀ ten, zpow_natCast]
    field_simp

/-- Digits of a whole number: no zero stands before others. -/
structure Whole (digits : List Char) : Prop where
  present : digits ≠ []
  all : ∀ c ∈ digits, isDigit c = true
  first : digits.head? = some '0' → digits = ['0']

/-- Digits behind a point: there are some, and the last is no zero. -/
structure Places (digits : List Char) : Prop where
  present : digits ≠ []
  all : ∀ c ∈ digits, isDigit c = true
  last : digits.getLast? ≠ some '0'

/-- Written out: a whole number, and further digits behind a point if there are any. -/
inductive Plain (negative : Bool) : List Char → Prop
  | whole {digits : List Char} (unpadded : Whole digits) :
      Plain negative (signChars negative ++ digits)
  | pointed {digits places : List Char} (unpadded : Whole digits) (ended : Places places) :
      Plain negative (signChars negative ++ (digits ++ '.' :: places))

inductive Exponent (exponent : Int) : List Char → Prop
  | signed {digits : List Char} (unpadded : Whole digits)
      (value : digitsValue digits = exponent.natAbs) :
      Exponent exponent ((if 0 ≤ exponent then '+' else '-') :: digits)

/-- A digit other than zero, further digits behind a point if there are any, and an exponent. -/
inductive Scaled (negative : Bool) (exponent : Int) : List Char → Prop
  | single {digit : Char} {tail : List Char} (isDigit : isDigit digit = true)
      (nonzero : digit ≠ '0') (scale : Exponent exponent tail) :
      Scaled negative exponent (signChars negative ++ digit :: 'e' :: tail)
  | pointed {digit : Char} {places tail : List Char} (isDigit : isDigit digit = true)
      (nonzero : digit ≠ '0') (ended : Places places) (scale : Exponent exponent tail) :
      Scaled negative exponent (signChars negative ++ digit :: '.' :: (places ++ 'e' :: tail))

theorem whole_digitChars (n : Nat) : Whole (digitChars n) where
  present := Decimal.digitChars_ne_nil n
  all := Decimal.isDigit_of_mem_digitChars n
  first zero := by
    rcases n.eq_zero_or_pos with rfl | positive
    · rfl
    · exact absurd zero (Decimal.head_digitChars positive)

theorem exponent_chars (scale : Int) : Exponent scale (exponentChars scale) :=
  .signed (whole_digitChars scale.natAbs) (Decimal.digitsValue_digitChars scale.natAbs)

section Parts

variable {first second : List Char} (normal : Decimal.Normal (first ++ second))

include normal

theorem whole_of_normal (present : first ≠ []) : Whole first where
  present := present
  all := (List.forall_mem_append.mp normal.all).1
  first zero := by
    have lead := normal.first
    rw [List.head?_append_of_ne_nil _ present] at lead
    exact absurd zero lead

theorem places_of_normal (present : second ≠ []) : Places second where
  present := present
  all := (List.forall_mem_append.mp normal.all).2
  last := by
    have last := normal.last
    rwa [List.getLast?_append_of_ne_nil _ present] at last

end Parts

section Layout

variable {digits : List Char} (normal : Decimal.Normal digits)

include normal

theorem plain_layout {places : Int} (low : -Decimal.fractionLimit < places + digits.length)
    (high : places + digits.length ≤ Decimal.wholeLimit) (negative : Bool) :
    Plain negative (signChars negative ++ Decimal.layout digits places) := by
  have laid := Decimal.laid_layout normal.present places
  generalize Decimal.layout digits places = chars at laid ⊢
  cases laid with
  | @whole zeros exact few =>
    refine .whole ⟨by simp [normal.present], ?_, ?_⟩
    · exact List.forall_mem_append.mpr ⟨normal.all, Decimal.isDigit_of_mem_zeros⟩
    · rw [List.head?_append_of_ne_nil _ normal.present]
      exact fun zero => absurd zero normal.first
  | @inner first second split before behind exact few =>
    subst split
    exact .pointed (whole_of_normal normal before) (places_of_normal normal behind)
  | @small zeros exact few =>
    have lead : Whole ['0'] := whole_digitChars 0
    have ended : Places (List.replicate zeros '0' ++ digits) := by
      refine ⟨by simp [normal.present], ?_, ?_⟩
      · exact List.forall_mem_append.mpr ⟨Decimal.isDigit_of_mem_zeros, normal.all⟩
      · rw [List.getLast?_append_of_ne_nil _ normal.present]
        exact normal.last
    exact .pointed lead ended
  | scaled other => exact absurd ⟨low, high⟩ other

theorem scaled_layout {places : Int} (other : ¬(-Decimal.fractionLimit < places + digits.length ∧
      places + digits.length ≤ Decimal.wholeLimit)) (negative : Bool) :
    Scaled negative (places + digits.length - 1)
      (signChars negative ++ Decimal.layout digits places) := by
  have some := List.length_pos_of_ne_nil normal.present
  have limits : 0 < Decimal.fractionLimit ∧ 0 < Decimal.wholeLimit := by decide
  have laid := Decimal.laid_layout normal.present places
  generalize Decimal.layout digits places = chars at laid ⊢
  cases laid with
  | whole exact few => exact absurd ⟨by omega, few⟩ other
  | @inner first second split before behind exact few =>
    have length := congrArg List.length split
    rw [List.length_append] at length
    exact absurd ⟨by omega, few⟩ other
  | small exact few => exact absurd ⟨by omega, by omega⟩ other
  | scaled _ =>
    rcases digits with _ | ⟨digit, _ | ⟨next, more⟩⟩
    · exact absurd rfl normal.present
    · exact .single (normal.all digit (by simp)) (by simpa using normal.first) (exponent_chars _)
    · have cut : Decimal.Normal ([digit] ++ next :: more) := normal
      have ended : Places (next :: more) := places_of_normal cut (by simp)
      exact .pointed (normal.all digit (by simp)) (by simpa using normal.first) ended
        (exponent_chars _)

end Layout

theorem Plain.ne_e {negative : Bool} {chars : List Char} (plain : Plain negative chars) :
    ∀ c ∈ chars, c ≠ 'e' := by
  have sign : ∀ c ∈ signChars negative, c ≠ 'e' := by
    cases negative <;> simp [signChars]
  cases plain with
  | whole unpadded =>
    exact List.forall_mem_append.mpr ⟨sign, ne_e_of_isDigit unpadded.all⟩
  | pointed unpadded ended =>
    refine List.forall_mem_append.mpr ⟨sign, List.forall_mem_append.mpr ⟨?_, ?_⟩⟩
    · exact ne_e_of_isDigit unpadded.all
    · exact List.forall_mem_cons.mpr ⟨by decide, ne_e_of_isDigit ended.all⟩

theorem Scaled.mem_e {negative : Bool} {scale : Int} {chars : List Char}
    (scaled : Scaled negative scale chars) : 'e' ∈ chars := by
  cases scaled <;> simp

def sign (negative : Bool) : ℚ :=
  if negative then -1 else 1

theorem value_signed {chars : List Char} (digit : ∀ c ∈ chars.head?, isDigit c = true)
    (negative : Bool) : value (signChars negative ++ chars) = sign negative * magnitude chars := by
  cases negative with
  | true => simp [signChars, sign, value]
  | false =>
    rcases chars with _ | ⟨c, more⟩
    · simp [signChars, sign, value, magnitude, pointed, exponent, digitsValue]
    · have other : c ≠ '-' := by
        rintro rfl
        exact absurd (digit '-' rfl) (by decide)
      simp [signChars, sign, value, other]

/-- The layout of digits with a sign denotes their value at their places, with that sign. -/
theorem value_layout {digits : List Char} (normal : Decimal.Normal digits) (negative : Bool)
    (places : Int) :
    value (signChars negative ++ Decimal.layout digits places) =
      sign negative * (digitsValue digits * 10 ^ places) := by
  rw [value_signed (normal.head_layout places), magnitude_layout normal.present normal.all]

end Numeral

namespace Decimal

/-- Different signs, digits or exponents are laid out differently. -/
theorem layout_injective {digits others : List Char} (normal : Normal digits)
    (otherNormal : Normal others) {negative otherNegative : Bool} {exponent other : Int}
    (same : signChars negative ++ layout digits exponent =
      signChars otherNegative ++ layout others other) :
    negative = otherNegative ∧ digits = others ∧ exponent = other := by
  obtain ⟨rfl, chars⟩ := Binary64.signChars_append_inj (normal.head_layout exponent)
    (otherNormal.head_layout other) same
  have values := congrArg Numeral.magnitude chars
  rw [Numeral.magnitude_layout normal.present normal.all,
    Numeral.magnitude_layout otherNormal.present otherNormal.all] at values
  have decimals : (⟨digitsValue digits, exponent⟩ : Decimal) = ⟨digitsValue others, other⟩ :=
    eq_of_value_eq normal.digitsValue_mod_ten otherNormal.digitsValue_mod_ten values
  obtain ⟨equal, rfl⟩ := Decimal.mk.inj decimals
  refine ⟨rfl, ?_, rfl⟩
  rw [← normal.digitChars_digitsValue, equal, otherNormal.digitChars_digitsValue]

/-- The shortest decimals of a number are written out when the number is neither too small nor too
great. -/
theorem IsShortest.positional_iff {x : Binary64} (finite : x.isFinite = true) {decimal : Decimal}
    (shortest : IsShortest x decimal) :
    decimal.Positional ↔ (x.withSign false).less (.ofDecimal 1 (-6)) = false ∧
      (x.withSign false).less (.ofDecimal 1 21) = true := by
  have some : decimal.digits ≠ 0 := by have := shortest.ended; omega
  have low := shortest.less_iff finite (by decide +kernel :
    (Binary64.ofDecimal 9 (-6 - 1)).reach < (Binary64.ofDecimal 1 (-6)).reach)
  have high := shortest.less_iff finite (by decide +kernel :
    (Binary64.ofDecimal 9 (21 - 1)).reach < (Binary64.ofDecimal 1 21).reach)
  rw [value_lt_iff some] at low high
  rw [high, ← Bool.not_eq_true, low, not_le]
  rfl

theorem plain_iff {digits : List Char} (normal : Normal digits) (negative : Bool)
    (exponent : Int) :
    Numeral.Plain negative (signChars negative ++ layout digits exponent) ↔
      -fractionLimit < exponent + digits.length ∧ exponent + digits.length ≤ wholeLimit := by
  refine ⟨fun plain => ?_, fun bounds => Numeral.plain_layout normal bounds.1 bounds.2 negative⟩
  by_contra other
  exact plain.ne_e 'e' (Numeral.scaled_layout normal other negative).mem_e rfl

theorem plain_chars_iff {decimal : Decimal} (ended : decimal.digits % 10 ≠ 0) (negative : Bool) :
    Numeral.Plain negative (signChars negative ++ decimal.chars) ↔ decimal.Positional :=
  plain_iff (normal_digitChars ended) negative decimal.exponent

/-- The layout of digits changes nothing about their value and leaves nothing to be left out. For
digits without a zero at either end, an exponent and a sign, the text denotes exactly that decimal.
It is written out, with no zero in front of others and neither a zero nor nothing behind its point,
just when the place of the point, counted from before the first digit, is above -6 and at most 21;
otherwise it has one digit before the point and an exponent of at least seven. Different signs,
digits or exponents have different texts. The text of a finite number other than zero is the layout
of its shortest decimal, and any shortest decimal is written out just when the magnitude is at
least a millionth and less than the twenty-first power of ten. -/
theorem layout_canonical :
    (∀ (negative : Bool) (digits : List Char) (exponent : Int), Normal digits →
      let text := signChars negative ++ layout digits exponent
      let point := exponent + digits.length
      Numeral.value text = Numeral.sign negative * (digitsValue digits * 10 ^ exponent) ∧
      (Numeral.Plain negative text ↔ -6 < point ∧ point ≤ 21) ∧
      (¬(-6 < point ∧ point ≤ 21) →
        Numeral.Scaled negative (point - 1) text ∧ 7 ≤ (point - 1).natAbs) ∧
      ∀ (otherNegative : Bool) (others : List Char) (other : Int), Normal others →
        text = signChars otherNegative ++ layout others other →
          negative = otherNegative ∧ digits = others ∧ exponent = other) ∧
    ∀ x : Binary64, x.isFinite = true → x.isZero = false →
      x.chars = signChars x.isNegative ++ (shortest x).chars ∧ IsShortest x (shortest x) ∧
      ∀ decimal : Decimal, IsShortest x decimal →
        Normal (digitChars decimal.digits) ∧
        (Numeral.Plain x.isNegative (signChars x.isNegative ++ decimal.chars) ↔
          (x.withSign false).less (.ofDecimal 1 (-6)) = false ∧
            (x.withSign false).less (.ofDecimal 1 21) = true) := by
  refine ⟨?_, ?_⟩
  · intro negative digits exponent normal text point
    refine ⟨Numeral.value_layout normal negative exponent, plain_iff normal negative exponent,
      fun other => ⟨Numeral.scaled_layout normal other negative, by omega⟩, ?_⟩
    intro otherNegative others other otherNormal same
    exact layout_injective normal otherNormal same
  · intro x finite nonzero
    refine ⟨Binary64.chars_of_ne_zero finite nonzero, isShortest_shortest finite nonzero, ?_⟩
    intro decimal shortest
    exact ⟨normal_digitChars shortest.ended,
      (plain_chars_iff shortest.ended x.isNegative).trans (shortest.positional_iff finite)⟩

/-- Just below the range that is written out, and at its lower end. -/
theorem ends_of_layout :
    Normal ['1', '2', '5'] ∧
      signChars true ++ layout ['1', '2', '5'] (-9) = "-1.25e-7".toList ∧
      Numeral.value "-1.25e-7".toList = -1 * (125 * 10 ^ (-9 : Int)) ∧
      Numeral.Scaled true (-7) "-1.25e-7".toList ∧ ¬Numeral.Plain true "-1.25e-7".toList ∧
      (Binary64.ofDecimal 1 (-6)).isFinite = true ∧ (Binary64.ofDecimal 1 (-6)).isZero = false ∧
      IsShortest (.ofDecimal 1 (-6)) ⟨1, -6⟩ ∧ Numeral.Plain false "0.000001".toList := by
  obtain ⟨canonical, numbers⟩ := layout_canonical
  have normal : Normal ['1', '2', '5'] :=
    ⟨by decide, List.all_eq_true.mp rfl, by decide, by decide⟩
  have finite : (Binary64.ofDecimal 1 (-6)).isFinite = true := by decide +kernel
  have nonzero : (Binary64.ofDecimal 1 (-6)).isZero = false := by decide +kernel
  have own : shortest (.ofDecimal 1 (-6)) = ⟨1, -6⟩ := by decide +kernel
  obtain ⟨denoted, plain, scaled, -⟩ := canonical true ['1', '2', '5'] (-9) normal
  obtain ⟨-, minimal, written⟩ := numbers (.ofDecimal 1 (-6)) finite nonzero
  rw [own] at minimal
  have positive : (Binary64.ofDecimal 1 (-6)).isNegative = false := by decide +kernel
  have millionth := (written ⟨1, -6⟩ minimal).2.mpr ⟨by decide +kernel, by decide +kernel⟩
  rw [positive] at millionth
  refine ⟨normal, rfl, denoted, (scaled (by decide)).1, fun short => ?_, finite, nonzero, minimal,
    millionth⟩
  exact absurd (plain.mp short) (by decide)

end Decimal

end Calculator

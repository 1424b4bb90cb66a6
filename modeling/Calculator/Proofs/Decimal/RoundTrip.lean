import Calculator.Proofs.Decimal.Layout
import Calculator.Proofs.Evaluation.Limit
import Calculator.Proofs.Statement.Terminals

/-!
Typing a printed number. The text of a finite number is a number token, with a minus sign before it
if the number is negative; a text with an exponent has a word behind that, with which no statement
goes on. So a number that is written out is answered by itself, and one with an exponent is refused.
-/

namespace Calculator

variable {σ : Type}

open Token (Shape isDigit isLetter isWordChar span_append)

namespace Source

theorem scan_minus (rest : List Char) (pos : Nat) :
    scan ⟨'-' :: rest, pos⟩ = ⟨.operator, "-", pos⟩ :: scan ⟨rest, pos + 1⟩ :=
  scan_cons (by decide) rfl pos

theorem scan_exponent (exponent : Int) (pos : Nat) :
    scan ⟨'e' :: Decimal.exponentChars exponent, pos⟩ =
      ⟨.word, "e", pos⟩ :: scan ⟨Decimal.exponentChars exponent, pos + 1⟩ := by
  have outside : ∀ c ∈ (Decimal.exponentChars exponent).head?, isWordChar c = false := by
    rintro c ⟨⟩
    split <;> decide
  have read := Token.lexeme_of_isLetter (by decide : isLetter 'e' = true)
    (List.forall_mem_nil _) outside
  exact scan_cons (by decide) read pos

/-- A number is read up to a character that cannot go on with it. -/
theorem scan_number {chars after : List Char} (shape : Shape .number chars)
    (ended : ∀ c ∈ after.head?, isDigit c = false) (pointless : ∀ c ∈ after.head?, c ≠ '.')
    (pos : Nat) :
    scan ⟨chars ++ after, pos⟩ =
      ⟨.number, String.ofList chars, pos⟩ :: scan ⟨after, pos + chars.length⟩ := by
  have numbered : Token.numberChars (chars ++ after) = (chars, after) := by
    cases shape with
    | whole present all => exact Token.numberChars_of_ended all ended pointless
    | @pointed digits fraction present all places =>
      obtain ⟨taken, dropped⟩ := span_append places ended
      rw [List.append_assoc, List.cons_append, Token.numberChars_of_point all, taken, dropped]
  obtain ⟨c, more, rfl, digit⟩ := shape.exists_digit
  have read : Token.lexeme c (more ++ after) = (.number, c :: more, after) := by
    rw [Token.lexeme_of_isDigit digit, ← List.cons_append, numbered]
  exact scan_cons (Token.isBlank_eq_false (.inl (by simp [isWordChar, digit]))) read pos

end Source

namespace Reader

variable {size frames : Nat} {token : Token} {tokens rest : List Token} {expr : Expr}

theorem signed_number (number : token.kind = .number) :
    signed size (frames + 3) (token :: rest) =
      .ok (.number (literal token.text) (some token.pos), rest) := by
  have other : isOperator "-" token = false := by simp [isOperator, number]
  simp [signed, primary, peek_cons, other, number]

theorem signed_minus {minus : Token} (sign : isOperator "-" minus = true)
    (read : signed size frames tokens = .ok (expr, rest)) :
    signed size (frames + 1) (minus :: tokens) =
      .ok (.unary .neg expr (some minus.pos), rest) := by
  simp [signed, peek_cons, sign, read, Outcome.andThen]

theorem sum_of_signed (read : signed size frames tokens = .ok (expr, rest))
    (ended : (peek rest).kind ≠ .operator) :
    sum size (frames + 8) tokens = .ok (expr, rest) := by
  have raised : isOperator "^" (peek rest) = false := by simp [isOperator, ended]
  have power : power size (frames + 2) tokens = .ok (expr, rest) := by
    simp [Reader.power, read, raised, Outcome.andThen]
  have product : product size (frames + 5) tokens = .ok (expr, rest) := by
    rw [Reader.product, power]
    exact chain_eq_of_none (by simp [productOperator?, ended]) _ _
  rw [sum, product]
  exact chain_eq_of_none (by simp [sumOperator?, ended]) _ _

/-- Tokens that begin with an operand and no operator behind it are that operand, unless anything
but the end follows. -/
theorem whole_of_signed {first : Token} (genuine : first.Genuine)
    (plain : first.kind ≠ .keyword) (visible : first.kind ≠ .eof)
    (read : ∀ size, signed size frames (first :: tokens) = .ok (expr, rest))
    (ended : (peek rest).kind ≠ .operator) :
    whole (frames + 8) (first :: tokens) =
      if (peek rest).kind = .eof then .ok (some (.expression expr))
      else .error (.malformed ⟨peek rest, .ending⟩) := by
  have noClause : first.text ≠ "let" := fun same => plain (genuine.keyword (by simp [same]))
  have noConstant : first.text ≠ "const" := fun same => plain (genuine.keyword (by simp [same]))
  simp only [whole, statement, peek_cons, visible, noClause, noConstant, if_false,
    sum_of_signed (read _) ended, Outcome.andThen]

end Reader

def signChars (negative : Bool) : List Char :=
  if negative then ['-'] else []

/-- What a number with a sign before it is read as. -/
def Expr.signedNumber (negative : Bool) (value : Binary64) : Expr :=
  if negative then .unary .neg (.number value (some 1)) (some 0) else .number value (some 0)

/-- A number with or without a sign is read, and the token behind it decides. -/
theorem Statement.read_signedNumber {number tail : List Char} (shape : Shape .number number)
    (ended : ∀ c ∈ tail.head?, isDigit c = false) (pointless : ∀ c ∈ tail.head?, c ≠ '.')
    (negative : Bool) {next : Token} {more : List Token}
    (behind : Source.scan ⟨tail, (signChars negative ++ number).length⟩ = next :: more)
    (apart : next.kind ≠ .operator) {frames : Nat} (enough : 12 ≤ frames) :
    Statement.read frames (String.ofList (signChars negative ++ number ++ tail)) =
      if next.kind = .eof then
        .ok (some (.expression (.signedNumber negative (Reader.literal (String.ofList number)))))
      else .error (.malformed ⟨next, .ending⟩) := by
  obtain ⟨fewer, rfl⟩ : ∃ fewer, frames = fewer + 4 + 8 := ⟨frames - 12, by omega⟩
  have genuine := Token.scan_genuine (String.ofList (signChars negative ++ number ++ tail))
  have scanned : Token.scan (String.ofList (signChars negative ++ number ++ tail)) =
      Source.scan ⟨signChars negative ++ number ++ tail, 0⟩ := by
    rw [Token.scan, Source.ofString, String.toList_ofList]
  rw [Statement.read, scanned]
  rw [scanned] at genuine
  cases negative with
  | false =>
    have tokens : Source.scan ⟨signChars false ++ number ++ tail, 0⟩ =
        ⟨.number, String.ofList number, 0⟩ :: next :: more := by
      rw [← behind]
      simpa [signChars] using Source.scan_number shape ended pointless 0
    rw [tokens] at genuine ⊢
    exact Reader.whole_of_signed (genuine _ List.mem_cons_self) (by simp) (by simp)
      (fun _ => Reader.signed_number rfl) apart
  | true =>
    have tokens : Source.scan ⟨signChars true ++ number ++ tail, 0⟩ =
        ⟨.operator, "-", 0⟩ :: ⟨.number, String.ofList number, 1⟩ :: next :: more := by
      rw [← behind]
      have after := Source.scan_number shape ended pointless 1
      simp only [signChars, if_true, List.cons_append, List.nil_append, List.length_cons,
        Source.scan_minus]
      rw [after, Nat.add_comm]
    rw [tokens] at genuine ⊢
    exact Reader.whole_of_signed (genuine _ List.mem_cons_self) (by simp) (by simp)
      (fun _ => Reader.signed_minus rfl (Reader.signed_number rfl)) apart

namespace Binary64

/-- Zero, and magnitudes from a millionth up to, and without, the twenty-first power of ten. -/
def WrittenOut (x : Binary64) : Prop :=
  x.isZero = true ∨
    (x.withSign false).less (.ofDecimal 1 (-6)) = false ∧
      (x.withSign false).less (.ofDecimal 1 21) = true

instance (x : Binary64) : Decidable x.WrittenOut :=
  inferInstanceAs (Decidable (_ ∨ _))

section Finite

variable {x : Binary64} (finite : x.isFinite = true)

include finite

theorem chars_of_isZero (zero : x.isZero = true) : x.chars = ['0'] := by
  cases x with
  | nan => cases finite
  | infinity negative => cases finite
  | finite negative significand scale canonical =>
    have none : significand = 0 := by simpa [isZero] using zero
    simp [chars, none]

theorem chars_of_ne_zero (nonzero : x.isZero = false) :
    x.chars = signChars x.isNegative ++ (Decimal.shortest x).chars := by
  cases x with
  | nan => cases finite
  | infinity negative => cases finite
  | finite negative significand scale canonical =>
    have some : significand ≠ 0 := by simpa [isZero] using nonzero
    cases negative <;> simp [chars, some, signChars, isNegative]

/-- A millionth and the twenty-first power of ten are their own shortest decimals, so that they
bound the decimals that are written out as well as the numbers. -/
theorem positional_iff (nonzero : x.isZero = false) :
    (Decimal.shortest x).Positional ↔ x.WrittenOut := by
  have some := Decimal.shortest_digits_ne_zero finite nonzero
  have low := Decimal.less_iff_value_lt finite
    (by decide +kernel : Decimal.shortest (.ofDecimal 1 (-6)) = ⟨1, -6⟩)
  have high := Decimal.less_iff_value_lt finite
    (by decide +kernel : Decimal.shortest (.ofDecimal 1 21) = ⟨1, 21⟩)
  rw [Decimal.value_lt_iff some] at low high
  rw [WrittenOut, high, nonzero, ← Bool.not_eq_true, low, not_le]
  simp only [Bool.false_eq_true, false_or]
  rfl

end Finite

theorem neg_withSign_false (x : Binary64) :
    (if x.isNegative then (x.withSign false).neg else x.withSign false) = x := by
  rcases x with _ | (_ | _) | ⟨_ | _, significand, scale, canonical⟩ <;> rfl

theorem equal_of_dropZeroSign_eq {x y : Binary64} (finite : x.isFinite = true)
    (otherFinite : y.isFinite = true) (same : x.dropZeroSign = y.dropZeroSign) :
    x.equal y = true := by
  simp [equal, isNaN_of_isFinite finite, isNaN_of_isFinite otherFinite, same]

/-- What a sign stands before begins with a digit, so the sign can be told from the text. -/
theorem signChars_append_inj {negative other : Bool} {chars others : List Char}
    (digit : ∀ c ∈ chars.head?, isDigit c = true)
    (otherDigit : ∀ c ∈ others.head?, isDigit c = true)
    (same : signChars negative ++ chars = signChars other ++ others) :
    negative = other ∧ chars = others := by
  have minus : isDigit '-' ≠ true := by decide
  cases negative <;> cases other
  · exact ⟨rfl, same⟩
  · obtain rfl : chars = '-' :: others := same
    exact absurd (digit '-' rfl) minus
  · obtain rfl : '-' :: chars = others := same
    exact absurd (otherDigit '-' rfl) minus
  · exact ⟨rfl, (List.cons.inj same).2⟩

section Scaled

variable {x y : Binary64} (finite : x.isFinite = true) (scaled : ¬x.WrittenOut)

include scaled

theorem isZero_of_not_writtenOut : x.isZero = false := by
  by_contra zero
  exact scaled (.inl (by simpa using zero))

include finite

theorem not_positional_of_not_writtenOut : ¬(Decimal.shortest x).Positional :=
  mt (positional_iff finite (isZero_of_not_writtenOut scaled)).mp scaled

theorem chars_of_not_writtenOut :
    x.chars = signChars x.isNegative ++
      Decimal.mantissa (Decimal.digitChars (Decimal.shortest x).digits) ++
        'e' :: Decimal.exponentChars ((Decimal.shortest x).point - 1) := by
  rw [chars_of_ne_zero finite (isZero_of_not_writtenOut scaled),
    Decimal.chars_of_not_positional (not_positional_of_not_writtenOut finite scaled),
    Decimal.scientific_eq, List.append_assoc]

/-- The only `e` of a text with an exponent stands behind its digits. -/
theorem takeWhile_chars_of_not_writtenOut :
    x.chars.takeWhile (· ≠ 'e') = signChars x.isNegative ++
      Decimal.mantissa (Decimal.digitChars (Decimal.shortest x).digits) := by
  have sign : ∀ c ∈ signChars x.isNegative, decide (c ≠ 'e') = true := by
    cases x.isNegative <;> simp [signChars]
  rw [chars_of_not_writtenOut finite scaled, List.append_assoc, ← Decimal.scientific_eq,
    List.takeWhile_append_of_pos sign,
    (Decimal.span_scientific (Decimal.isDigit_of_mem_digitChars _) _).1]

theorem isDigit_of_not_writtenOut : ∀ c ∈ (Decimal.shortest x).chars.head?, isDigit c = true := by
  obtain ⟨first, more, split, digit⟩ := (Decimal.shape_mantissa (Decimal.digitChars_ne_nil _)
    (Decimal.isDigit_of_mem_digitChars (Decimal.shortest x).digits)).exists_digit
  rw [Decimal.chars_of_not_positional (not_positional_of_not_writtenOut finite scaled),
    Decimal.scientific_eq, split]
  rintro c ⟨⟩
  exact digit

theorem eq_of_chars_eq_of_not_writtenOut (otherFinite : y.isFinite = true)
    (otherScaled : ¬y.WrittenOut) (same : x.chars = y.chars) : x = y := by
  rw [chars_of_ne_zero finite (isZero_of_not_writtenOut scaled),
    chars_of_ne_zero otherFinite (isZero_of_not_writtenOut otherScaled)] at same
  obtain ⟨sign, chars⟩ := signChars_append_inj (isDigit_of_not_writtenOut finite scaled)
    (isDigit_of_not_writtenOut otherFinite otherScaled) same
  have decimals := Decimal.eq_of_chars_eq (not_positional_of_not_writtenOut finite scaled)
    (not_positional_of_not_writtenOut otherFinite otherScaled) chars
  have magnitudes : x.withSign false = y.withSign false := by
    rw [← Decimal.shortest_toBinary64 finite, decimals, Decimal.shortest_toBinary64 otherFinite]
  rw [← neg_withSign_false x, ← neg_withSign_false y, sign, magnitudes]

end Scaled

end Binary64

theorem FrameLimit.twelve_le_of_budget {limit : FrameLimit} {frames : Nat}
    (budgeted : limit.budget = .ok frames) : 12 ≤ frames :=
  le_trans (by decide) (least_le_of_budget budgeted)

namespace Interpreter

/-- A text that is no statement is counted, and nothing else happens. -/
theorem feed_malformed (interpreter : Interpreter σ) {frames : Nat}
    (allowed : interpreter.limit.budget = .ok frames) {text : String} {error : SyntaxError}
    (read : Statement.read frames text = .error (.malformed error)) :
    interpreter.feed text =
      (.error (.rejected (interpreter.count + 1) (.malformed error)), interpreter.counted) := by
  have same : interpreter.counted.limit = interpreter.limit := rfl
  simp only [feed, same, allowed, run, read]
  rfl

/-- A number that is typed is counted and answered by its value. -/
theorem feed_signedNumber (interpreter : Interpreter σ) {frames : Nat}
    (allowed : interpreter.limit.budget = .ok frames) {text : String} {negative : Bool}
    {value : Binary64}
    (read : Statement.read frames text =
      .ok (some (.expression (.signedNumber negative value)))) :
    interpreter.feed text =
      (.ok (.number (if negative then value.neg else value)), interpreter.counted) := by
  have enough := FrameLimit.twelve_le_of_budget allowed
  obtain ⟨fewer, rfl⟩ : ∃ fewer, frames = fewer + 2 := ⟨frames - 2, by omega⟩
  have same : interpreter.counted.limit = interpreter.limit := rfl
  simp only [feed, same, allowed, run, read, perform, Statement.perform]
  cases negative <;> rfl

section Printed

variable (interpreter : Interpreter σ) {frames : Nat}
  (allowed : interpreter.limit.budget = .ok frames) {x : Binary64} (finite : x.isFinite = true)

include allowed finite

theorem feed_text_of_writtenOut (written : x.WrittenOut) :
    interpreter.feed x.text = (.ok (.number x.dropZeroSign), interpreter.counted) := by
  have enough := FrameLimit.twelve_le_of_budget allowed
  cases zero : x.isZero with
  | true =>
    have shape : Shape .number ['0'] :=
      .whole (List.cons_ne_nil '0' []) (List.forall_mem_singleton.mpr (by decide))
    have read := Statement.read_signedNumber shape (by simp) (by simp) false
      (Source.scan_nil _) (by simp) enough
    have value : Reader.literal (String.ofList ['0']) = .zero false := by decide +kernel
    rw [value] at read
    have fed := interpreter.feed_signedNumber allowed read
    simp only [Binary64.dropZeroSign, zero, if_true]
    rw [Binary64.text, Binary64.chars_of_isZero finite zero]
    exact fed
  | false =>
    obtain ⟨shape, value⟩ :=
      Decimal.spells_of_positional ((Binary64.positional_iff finite zero).mpr written)
    have read := Statement.read_signedNumber shape (by simp) (by simp) x.isNegative
      (Source.scan_nil _) (by simp) enough
    rw [List.append_nil, ← Binary64.chars_of_ne_zero finite zero, value,
      Decimal.shortest_toBinary64 finite] at read
    have fed := interpreter.feed_signedNumber allowed read
    rw [Binary64.neg_withSign_false] at fed
    simp only [Binary64.dropZeroSign, zero, Bool.false_eq_true, if_false]
    exact fed

theorem feed_text_of_not_writtenOut (scaled : ¬x.WrittenOut) :
    interpreter.feed x.text =
      (.error (.rejected (interpreter.count + 1) (.malformed
        ⟨⟨.word, "e", (x.chars.takeWhile (· ≠ 'e')).length⟩, .ending⟩)),
        interpreter.counted) := by
  have enough := FrameLimit.twelve_le_of_budget allowed
  have shape := Decimal.shape_mantissa (Decimal.digitChars_ne_nil (Decimal.shortest x).digits)
    (Decimal.isDigit_of_mem_digitChars _)
  have read := Statement.read_signedNumber shape (by rintro c ⟨⟩; decide) (by rintro c ⟨⟩; decide)
    x.isNegative (Source.scan_exponent ((Decimal.shortest x).point - 1) _) (by simp) enough
  rw [← Binary64.chars_of_not_writtenOut finite scaled] at read
  rw [Binary64.takeWhile_chars_of_not_writtenOut finite scaled]
  exact interpreter.feed_malformed allowed read

end Printed

/-- What is printed can be typed back. A finite number whose magnitude is in the range that is
written out is answered by itself, the sign of a zero apart, and nothing changes but the number of
statements; any other finite number is refused for the word `e` behind its digits. So no two finite
numbers that differ are printed alike. -/
theorem printed_number_typed_back (interpreter : Interpreter σ) {frames : Nat}
    (allowed : interpreter.limit.budget = .ok frames) (x : Binary64) (finite : x.isFinite = true) :
    (x.WrittenOut →
      interpreter.feed x.text = (.ok (.number x.dropZeroSign), interpreter.counted)) ∧
    (¬x.WrittenOut →
      interpreter.feed x.text =
        (.error (.rejected (interpreter.count + 1) (.malformed
          ⟨⟨.word, "e", (x.chars.takeWhile (· ≠ 'e')).length⟩, .ending⟩)),
          interpreter.counted)) ∧
    ∀ y : Binary64, y.isFinite = true → x.text = y.text → x.equal y = true := by
  refine ⟨interpreter.feed_text_of_writtenOut allowed finite,
    interpreter.feed_text_of_not_writtenOut allowed finite, fun y otherFinite same => ?_⟩
  by_cases written : x.WrittenOut <;> by_cases otherWritten : y.WrittenOut
  · have fed := interpreter.feed_text_of_writtenOut allowed finite written
    rw [same, interpreter.feed_text_of_writtenOut allowed otherFinite otherWritten] at fed
    simp only [Prod.mk.injEq, Except.ok.injEq, Answer.number.injEq, and_true] at fed
    exact Binary64.equal_of_dropZeroSign_eq finite otherFinite fed.symm
  · have fed := interpreter.feed_text_of_writtenOut allowed finite written
    rw [same, interpreter.feed_text_of_not_writtenOut allowed otherFinite otherWritten] at fed
    cases (Prod.mk.inj fed).1
  · have fed := interpreter.feed_text_of_not_writtenOut allowed finite written
    rw [same, interpreter.feed_text_of_writtenOut allowed otherFinite otherWritten] at fed
    cases (Prod.mk.inj fed).1
  · have chars := congrArg String.toList same
    simp only [Binary64.text, String.toList_ofList] at chars
    rw [Binary64.eq_of_chars_eq_of_not_writtenOut finite written otherFinite otherWritten chars]
    exact Binary64.equal_of_dropZeroSign_eq otherFinite otherFinite rfl

end Interpreter

/-- At the ends of the range: a negative millionth comes back as it is, and the twenty-first power
of ten is refused. -/
theorem ends_of_range_typed_back :
    let millionth := (Binary64.ofDecimal 1 (-6)).neg
    let great := Binary64.ofDecimal 1 21
    bareInterpreter.limit.budget = .ok 10000 ∧ millionth.isFinite = true ∧
      great.isFinite = true ∧ millionth.text = "-0.000001" ∧ great.text = "1e+21" ∧
      bareInterpreter.feed "-0.000001" = (.ok (.number millionth), bareInterpreter.counted) ∧
      bareInterpreter.feed "1e+21" =
        (.error (.rejected 1 (.malformed ⟨⟨.word, "e", 1⟩, .ending⟩)),
          bareInterpreter.counted) := by
  intro millionth great
  have allowed : bareInterpreter.limit.budget = .ok 10000 := by decide
  have finite : millionth.isFinite = true := by decide +kernel
  have greatFinite : great.isFinite = true := by decide +kernel
  have text : millionth.text = "-0.000001" := by decide +kernel
  have greatText : great.text = "1e+21" := by decide +kernel
  have fed := (bareInterpreter.printed_number_typed_back allowed millionth finite).1
    (by decide +kernel)
  have refused := (bareInterpreter.printed_number_typed_back allowed great greatFinite).2.1
    (by decide +kernel)
  have kept : millionth.dropZeroSign = millionth := by decide +kernel
  have position : (great.chars.takeWhile (· ≠ 'e')).length = 1 := by decide +kernel
  rw [text, kept] at fed
  rw [greatText, position] at refused
  exact ⟨allowed, finite, greatFinite, text, greatText, fed, refused⟩

/-- Under a limit that cannot be set not even zero comes back. -/
theorem limit_beyond_greatest_refuses_zero :
    ¬∀ (interpreter : Interpreter Unit) (x : Binary64), x.isFinite = true → x.WrittenOut →
      interpreter.feed x.text = (.ok (.number x.dropZeroSign), interpreter.counted) := by
  intro typedBack
  have fed := typedBack (bareInterpreter.withLimit (.frames 2147483648)) (.zero false)
    (by decide) (by decide)
  have refused : ((bareInterpreter.withLimit (.frames 2147483648)).feed
      (Binary64.zero false).text).1 = .error (.internal .limitTooLarge) := by decide +kernel
  rw [fed] at refused
  cases refused

end Calculator

import Calculator.Binary64.Rounding
import Calculator.Statement.Basic
import Calculator.Statement.SyntaxError
import Calculator.Token.Scan

/-! Reading statements from tokens by recursive descent. Sums and products associate to the left,
powers to the right, and a minus sign before an operand binds tighter than a power. Each descent
spends frames of a given budget, and running out of frames is an outcome of its own; budgets bound
the nesting of a text, never its length. The number of tokens of the whole text bounds every
repetition within it.

A definition spends one frame, arguments spend one, and an expression spends one for itself and two
for each level from sums down to primary expressions: one to enter the level and one to read it. A
minus sign, or a further power, spends one more. Looking at tokens spends none. -/

namespace Calculator.Reader

inductive Failure where
  | malformed (error : SyntaxError)
  | stackLimit
deriving DecidableEq

/-- Something read and the tokens after it, or why nothing was read. -/
abbrev Outcome (α : Type) := Except Failure (α × List Token)

/-- Go on with what was read, unless reading failed. -/
@[inline] def Outcome.andThen {α β : Type} (outcome : Outcome α)
    (next : α → List Token → Outcome β) : Outcome β :=
  match outcome with
  | .error failure => .error failure
  | .ok (value, rest) => next value rest

theorem Outcome.andThen_eq_ok_iff {α β : Type} {outcome : Outcome α}
    {next : α → List Token → Outcome β} {result : β × List Token} :
    outcome.andThen next = .ok result ↔
      ∃ value rest, outcome = .ok (value, rest) ∧ next value rest = .ok result := by
  rcases outcome with failure | ⟨value, rest⟩ <;> simp [Outcome.andThen, and_assoc]

/-- The current token; behind the last token the text has ended. -/
def peek : List Token → Token
  | [] => ⟨.eof, "", 0⟩
  | token :: _ => token

def reject {α : Type} (expected : Expectation) (tokens : List Token) : Outcome α :=
  .error (.malformed ⟨peek tokens, expected⟩)

def expect (text : String) (tokens : List Token) : Outcome Token :=
  if (peek tokens).text = text then .ok (peek tokens, tokens.tail) else reject (.text text) tokens

def expectKind (kind : Token.Kind) (tokens : List Token) : Outcome Token :=
  if (peek tokens).kind = kind then .ok (peek tokens, tokens.tail) else reject (.kind kind) tokens

/-- The operator of a token that joins the terms of a sum. -/
def sumOperator? (token : Token) : Option BinaryOp :=
  if token.kind ≠ .operator then none
  else if token.text = "+" then some .add
  else if token.text = "-" then some .sub
  else none

/-- The operator of a token that joins the factors of a product. -/
def productOperator? (token : Token) : Option BinaryOp :=
  if token.kind ≠ .operator then none
  else if token.text = "*" then some .mul
  else if token.text = "/" then some .div
  else none

/-- Whether a token is the operator with the given symbol. -/
def isOperator (symbol : String) (token : Token) : Bool :=
  token.kind = .operator && token.text = symbol

def digitsValue (digits : List Char) : Nat :=
  digits.foldl (fun total c => 10 * total + (c.toNat - '0'.toNat)) 0

/-- The number nearest to the decimal that a number token spells. -/
def literal (text : String) : Binary64 :=
  let whole := text.toList.takeWhile (· ≠ '.')
  let fraction := (text.toList.dropWhile (· ≠ '.')).tail
  .ofDecimal (digitsValue (whole ++ fraction)) (-(fraction.length : Int))

/-- Join further operands to an expression, from left to right, while operators of one level
follow, for at most the given number of rounds. -/
def chain (operator? : Token → Option BinaryOp) (operand : List Token → Outcome Expr) :
    Nat → Expr → List Token → Outcome Expr
  | 0, left, tokens => .ok (left, tokens)
  | rounds + 1, left, tokens =>
    match operator? (peek tokens) with
    | none => .ok (left, tokens)
    | some op =>
      (operand tokens.tail).andThen fun right rest =>
        chain operator? operand rounds (.binary op left right (some (peek tokens).pos)) rest

/-- One or more items with commas between them, for at most the given number of rounds. -/
def commaList (item : List Token → Outcome Expr) : Nat → List Token → Outcome (List Expr)
  | 0, tokens => reject .operand tokens
  | rounds + 1, tokens =>
    (item tokens).andThen fun first rest =>
      if (peek rest).text = "," then
        (commaList item rounds rest.tail).andThen fun more rest => .ok (first :: more, rest)
      else .ok ([first], rest)

mutual

/-- Terms joined by plus and minus signs. -/
def sum (size : Nat) : Nat → List Token → Outcome Expr
  | frames + 3, tokens =>
    (product size frames tokens).andThen fun left rest =>
      chain sumOperator? (product size frames) size left rest
  | _, _ => .error .stackLimit

/-- Factors joined by signs of multiplication and division. -/
def product (size : Nat) : Nat → List Token → Outcome Expr
  | frames + 3, tokens =>
    (power size frames tokens).andThen fun left rest =>
      chain productOperator? (power size frames) size left rest
  | _, _ => .error .stackLimit

/-- An operand, or an operand raised to a power. -/
def power (size : Nat) : Nat → List Token → Outcome Expr
  | frames + 2, tokens =>
    (signed size frames tokens).andThen fun left rest =>
      if isOperator "^" (peek rest) then
        (power size (frames + 1) rest.tail).andThen fun right after =>
          .ok (.binary .pow left right (some (peek rest).pos), after)
      else .ok (left, rest)
  | _, _ => .error .stackLimit

/-- A primary expression with any number of minus signs before it. -/
def signed (size : Nat) : Nat → List Token → Outcome Expr
  | frames + 1, tokens =>
    if isOperator "-" (peek tokens) then
      (signed size frames tokens.tail).andThen fun operand rest =>
        .ok (.unary .neg operand (some (peek tokens).pos), rest)
    else primary size frames tokens
  | _, _ => .error .stackLimit

/-- A number, a name, a call, or an expression in parentheses. -/
def primary (size : Nat) : Nat → List Token → Outcome Expr
  | frames + 2, tokens =>
    let token := peek tokens
    if token.kind = .number then
      .ok (.number (literal token.text) (some token.pos), tokens.tail)
    else if token.kind = .word then
      if (peek tokens.tail).text = "(" then
        (arguments size frames tokens.tail).andThen fun args rest =>
          .ok (.call token.text args (some token.pos), rest)
      else .ok (.var token.text (some token.pos), tokens.tail)
    else if token.text = "(" then
      (sum size frames tokens.tail).andThen fun inner rest =>
        (expect ")" rest).andThen fun _ after => .ok (inner, after)
    else reject .operand tokens
  | _, _ => .error .stackLimit

/-- Arguments in parentheses, with commas between them. -/
def arguments (size : Nat) : Nat → List Token → Outcome (List Expr)
  | frames + 1, tokens =>
    (expect "(" tokens).andThen fun _ rest =>
      if (peek rest).text = ")" then .ok ([], rest.tail)
      else
        (commaList (sum size frames) size rest).andThen fun args rest =>
          (expect ")" rest).andThen fun _ after => .ok (args, after)
  | _, _ => .error .stackLimit

end

/-- A clause of a function: its name, its parameters, and its body. -/
def clause (size : Nat) : Nat → List Token → Outcome Statement
  | frames + 1, tokens =>
    (expect "let" tokens).andThen fun opening rest =>
      (expectKind .word rest).andThen fun name rest =>
        (arguments size frames rest).andThen fun params rest =>
          (expect "=" rest).andThen fun _ rest =>
            (sum size frames rest).andThen fun body rest =>
              .ok (.clause name.text params body (some opening.pos), rest)
  | _, _ => .error .stackLimit

def constant (size : Nat) : Nat → List Token → Outcome Statement
  | frames + 1, tokens =>
    (expect "const" tokens).andThen fun opening rest =>
      (expectKind .word rest).andThen fun name rest =>
        (expect "=" rest).andThen fun _ rest =>
          (sum size frames rest).andThen fun value rest =>
            .ok (.constant name.text value (some opening.pos), rest)
  | _, _ => .error .stackLimit

/-- A statement, which its first token tells apart. -/
def statement (size frames : Nat) (tokens : List Token) : Outcome Statement :=
  if (peek tokens).text = "let" then clause size frames tokens
  else if (peek tokens).text = "const" then constant size frames tokens
  else (sum size frames tokens).andThen fun expr rest => .ok (.expression expr, rest)

/-- The statement that all tokens together are; none for an empty text. -/
def whole (frames : Nat) (tokens : List Token) : Except Failure (Option Statement) :=
  if (peek tokens).kind = .eof then .ok none
  else
    match statement tokens.length frames tokens with
    | .error failure => .error failure
    | .ok (stmt, rest) =>
      if (peek rest).kind = .eof then .ok (some stmt)
      else .error (.malformed ⟨peek rest, .ending⟩)

end Calculator.Reader

namespace Calculator

/-- Read a text as one statement, or as none when it is blank. -/
def Statement.read (frames : Nat) (text : String) : Except Reader.Failure (Option Statement) :=
  Reader.whole frames (Token.scan text)

end Calculator

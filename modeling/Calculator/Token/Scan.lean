import Calculator.Token.Source

namespace Calculator

namespace Token

/-- The characters of a number that starts with a digit: digits, and at most one point with any
digits after it. -/
def numberChars (chars : List Char) : List Char × List Char :=
  let whole := chars.takeWhile isDigit
  match chars.dropWhile isDigit with
  | '.' :: rest => (whole ++ '.' :: rest.takeWhile isDigit, rest.dropWhile isDigit)
  | rest => (whole, rest)

/-- The kind and the characters of the token that starts with a character that is not blank, and
the characters after it. -/
def lexeme (c : Char) (rest : List Char) : Kind × List Char × List Char :=
  if isOperator c then (.operator, [c], rest)
  else if isPunctuation c then (.punctuation, [c], rest)
  else if isDigit c then (.number, numberChars (c :: rest))
  else if isLetter c then
    let word := c :: rest.takeWhile isWordChar
    (if isKeyword (String.ofList word) then .keyword else .word, word, rest.dropWhile isWordChar)
  else (.invalid, [c], rest)

end Token

namespace Source

/-- Read the next token. At the end of the text this reads nothing and can be repeated. -/
def nextToken (source : Source) : Token × Source :=
  let start := source.skip Text.isBlank
  match start.rest with
  | [] => (⟨.eof, "", start.pos⟩, start)
  | c :: rest =>
    let (kind, chars, after) := Token.lexeme c rest
    (⟨kind, String.ofList chars, start.pos⟩, ⟨after, start.pos + chars.length⟩)

/-- Read at most the given number of tokens, up to the end of the text. -/
def tokens : Nat → Source → List Token
  | 0, _ => []
  | count + 1, source =>
    let (token, after) := source.nextToken
    if token.kind = .eof then [token] else token :: after.tokens count

/-- All tokens of a text. There are no more tokens than characters, and the end is one more. -/
def scan (source : Source) : List Token :=
  source.tokens (source.rest.length + 1)

end Source

/-- All tokens of a text, the end of the text last. -/
def Token.scan (text : String) : List Token :=
  (Source.ofString text).scan

end Calculator

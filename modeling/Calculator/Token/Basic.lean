namespace Calculator

namespace Token

/-- What a token can be. Every character that starts nothing else is an invalid token of its own,
and the end of the text is a token without characters. -/
inductive Kind where
  | number
  | operator
  | punctuation
  | keyword
  | word
  | invalid
  | eof
deriving DecidableEq

def Kind.name : Kind → String
  | .number => "number"
  | .operator => "operator"
  | .punctuation => "punctuation"
  | .keyword => "keyword"
  | .word => "word"
  | .invalid => "invalid"
  | .eof => "eof"

def Kind.all : List Kind :=
  [.number, .operator, .punctuation, .keyword, .word, .invalid, .eof]

end Token

structure Token where
  kind : Token.Kind
  text : String
  pos : Nat
deriving DecidableEq

namespace Token

def isDigit (c : Char) : Bool :=
  '0' ≤ c && c ≤ '9'

/-- A letter of the English alphabet, or an underscore. -/
def isLetter (c : Char) : Bool :=
  c == '_' || ('a' ≤ c && c ≤ 'z') || ('A' ≤ c && c ≤ 'Z')

def isWordChar (c : Char) : Bool :=
  isLetter c || isDigit c

def isOperator (c : Char) : Bool :=
  c == '+' || c == '-' || c == '*' || c == '/' || c == '^'

def isPunctuation (c : Char) : Bool :=
  c == '=' || c == '(' || c == ')' || c == ','

def isKeyword (text : String) : Bool :=
  text == "let" || text == "const"

end Token

end Calculator

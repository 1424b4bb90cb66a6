import Calculator.Binary64.Basic

namespace Calculator

/-- An operator between two operands. Trees built by hand may hold symbols without a meaning. -/
inductive BinaryOp where
  | add
  | sub
  | mul
  | div
  | pow
  | other (symbol : String)
deriving DecidableEq

def BinaryOp.symbol : BinaryOp → String
  | .add => "+"
  | .sub => "-"
  | .mul => "*"
  | .div => "/"
  | .pow => "^"
  | .other symbol => symbol

def BinaryOp.ofSymbol (symbol : String) : BinaryOp :=
  if symbol = "+" then .add
  else if symbol = "-" then .sub
  else if symbol = "*" then .mul
  else if symbol = "/" then .div
  else if symbol = "^" then .pow
  else .other symbol

inductive UnaryOp where
  | neg
  | other (symbol : String)
deriving DecidableEq

def UnaryOp.symbol : UnaryOp → String
  | .neg => "-"
  | .other symbol => symbol

def UnaryOp.ofSymbol (symbol : String) : UnaryOp :=
  if symbol = "-" then .neg else .other symbol

/-- What has a number as its value. A tree built by hand may hold a node of a foreign kind, which
has none. -/
inductive Expr where
  | number (value : Binary64) (pos : Option Nat)
  | var (name : String) (pos : Option Nat)
  | binary (op : BinaryOp) (left right : Expr) (pos : Option Nat)
  | unary (op : UnaryOp) (operand : Expr) (pos : Option Nat)
  | call (name : String) (args : List Expr) (pos : Option Nat)
  | foreign (kind : String) (pos : Option Nat)

instance : Inhabited Expr := ⟨.foreign "" none⟩

/-- What one line asks for: a further clause of a function, a global constant, or a value. -/
inductive Statement where
  | clause (name : String) (params : List Expr) (body : Expr) (pos : Option Nat)
  | constant (name : String) (value : Expr) (pos : Option Nat)
  | expression (expr : Expr)

end Calculator

import Calculator.Binary64.Checked
import Calculator.Builtin.Signature

namespace Calculator

/-- A function with a fixed number of arguments, acting on the hidden state `σ`. -/
structure Builtin (σ : Type) where
  arity : Nat
  doc : String := ""
  run : List Binary64 → σ → Except Fault Binary64 × σ

/-- The fault of a call with the wrong number of arguments. -/
def Signature.mismatch (signature : Signature) (given : Nat) : Fault :=
  ⟨"TypeError", signature.complaint given⟩

namespace Builtin

variable {σ : Type}

/-- What becomes of an outcome. Where the operation has no value the call gives nan, and beyond the
greatest number it gives infinity; any other fault goes on to the caller. -/
def shielded : Except Fault Binary64 → Except Fault Binary64
  | .ok value => .ok value
  | .error fault =>
    if fault.kind = "ValueError" then .ok .nan
    else if fault.kind = "OverflowError" then .ok (.infinity false)
    else .error fault

/-- A builtin from an operation whose outcomes are shielded. -/
def guarded (arity : Nat) (doc : String)
    (operation : List Binary64 → σ → Except Fault Binary64 × σ) : Builtin σ where
  arity := arity
  doc := doc
  run args state :=
    let (outcome, state) := operation args state
    (shielded outcome, state)

def nullary (signature : Signature) (operation : σ → Except Fault Binary64 × σ)
    (doc : String := "") : Builtin σ :=
  guarded 0 doc fun
    | [], state => operation state
    | args, state => (.error (signature.mismatch args.length), state)

/-- A builtin of one argument that does not depend on its state. -/
def unary (signature : Signature) (operation : Binary64 → Except Fault Binary64)
    (doc : String := "") : Builtin σ :=
  guarded 1 doc fun
    | [x], state => (operation x, state)
    | args, state => (.error (signature.mismatch args.length), state)

/-- A builtin that picks one of its arguments, by comparing the one picked so far with each that
follows. It is made for two of them, and can do with more. -/
def selection (name : String) (pick : Binary64 → Binary64 → Binary64) (doc : String := "") :
    Builtin σ :=
  guarded 2 doc fun
    | [], state => (.error ⟨"TypeError", name ++ " expected at least 1 argument, got 0"⟩, state)
    | [_], state => (.error ⟨"TypeError", "'float' object is not iterable"⟩, state)
    | first :: rest, state => (.ok (rest.foldl pick first), state)

end Builtin

end Calculator

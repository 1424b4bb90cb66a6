import Calculator.Binary64.Checked
import Calculator.Binary64.Trigonometry
import Calculator.Builtin.Basic
import Calculator.Table

namespace Calculator.Standard

open Binary64 (checked checkedInteger floorInt ceilInt truncInt)

variable {σ : Type}

/-- The ratio of a circle's circumference to its diameter. -/
def pi : Binary64 :=
  .finite false 0x1921FB54442D18 1023 (by decide)

def e : Binary64 :=
  .finite false 0x15BF0A8B145769 1023 (by decide)

/-- The first number, unless the second is strictly less. -/
def min (x y : Binary64) : Binary64 :=
  if y.less x then y else x

/-- The first number, unless the second is strictly greater. -/
def max (x y : Binary64) : Binary64 :=
  if x.less y then y else x

def radians (x : Binary64) : Except Fault Binary64 :=
  (x.mul pi).checkedDiv (.ofInt 180)

/-- The integer at the given share of the way from `low` to `high`. -/
def between (share low high : Binary64) : Except Fault Binary64 :=
  (checkedInteger floorInt (share.mul (high.sub low))).map fun way => low.add (.ofInt way)

/-- A random number. -/
def random (draw : σ → Binary64 × σ) : Builtin σ :=
  .nullary (.bare "Random.random")
    (fun state =>
      let (share, state) := draw state
      (.ok share, state))
    "random number in [0, 1)"

def randomIntegerSignature : Signature := .named "_randint" ["low", "high"]

def randomInteger (draw : σ → Binary64 × σ) : Builtin σ :=
  .guarded 2 "random integer in [min, max)" fun
    | [low, high], state =>
      let (share, state) := draw state
      (between share low high, state)
    | args, state => (.error (randomIntegerSignature.mismatch args.length), state)

/-- A logarithm. For either zero it is negative infinity, which the operation would not give. -/
def logarithm (operation : Binary64 → Binary64) (doc : String) : Builtin σ :=
  .unary (.named "_log.<locals>.wrapped" ["a"])
    (fun x => if x.isZero then .ok (.infinity true) else checked operation x) doc

/-- A function to the integers, which leaves nan and the infinities as they are. -/
def integral (operation : Binary64 → Except Fault Int) (doc : String) : Builtin σ :=
  .unary (.named "_integral.<locals>.wrapped" ["a"])
    (fun x => if x.isFinite then (operation x).map .ofInt else .ok x) doc

def trigonometric (label : String) (operation : Binary64 → Binary64) (doc : String) : Builtin σ :=
  .unary (.single label) (checked operation) doc

/-- The floor of the sum with one half, the sum being rounded first. -/
def rounded (x : Binary64) : Except Fault Int :=
  checkedInteger floorInt (x.add .half)

/-- The builtins of a new session. -/
def builtins (draw : σ → Binary64 × σ) : Table (Builtin σ) := ⟨[
  ("rand", random draw),
  ("randint", randomInteger draw),
  ("min", .selection "min" min "smaller of two numbers"),
  ("max", .selection "max" max "larger of two numbers"),
  ("ln", logarithm .log "natural logarithm"),
  ("lg", logarithm .logBaseTen "base-10 logarithm"),
  ("round", integral rounded "round half up"),
  ("floor", integral (checkedInteger floorInt) "round down"),
  ("ceil", integral (checkedInteger ceilInt) "round up"),
  ("trunc", integral (checkedInteger truncInt) "drop the fractional part"),
  ("sin", trigonometric "math.sin" .sin "sine (radians)"),
  ("cos", trigonometric "math.cos" .cos "cosine (radians)"),
  ("tg", trigonometric "math.tan" .tan "tangent (radians)"),
  ("deg", .unary (.named "<lambda>" ["a"]) radians "degrees to radians")]⟩

def constants : Table Binary64 := ⟨[("E", e), ("PI", pi)]⟩

/-- The line that explains a builtin: its name, its parameters, and what it does. -/
def referenceLine (name : String) (builtin : Builtin σ) : String :=
  let params := ", ".intercalate (["x", "y", "z"].take builtin.arity)
  "  " ++ name ++ "(" ++ params ++ "): " ++ builtin.doc

def byName {α : Type} (table : Table α) : List (String × α) :=
  table.entries.mergeSort fun first second => decide (first.1 ≤ second.1)

/-- A line for each builtin of a new session. -/
def referenceText : String :=
  "\n".intercalate
    ((byName (builtins fun state : Unit => (.zero false, state))).map fun entry =>
      referenceLine entry.1 entry.2)

end Calculator.Standard

import Calculator.Evaluation.Error

/-!
How many frames a statement may spend. The limit of a session is the number that was asked for,
which is checked only when a statement is about to run.

A frame is a routine of the interpreter that is under way. Those that pile up with the nesting of a
statement are counted: while it is read, one for a definition and one for each rule of the grammar
and each level of operators on the way down; while it is performed, one for a definition, one for
each expression, one for each call, and one more for the arguments or for the body of a call.

The others are not counted: those in use when a statement is fed, which depend on who feeds it, and
those from there to the first rule or expression; those that scan and look at tokens, look up names
and results, match a pattern or join two numbers, which have all ended when the next rule or
expression begins; and whatever a builtin needs inside.
-/

namespace Calculator

/-- A number of frames as it was asked for, or none, when the number was left out. -/
inductive FrameLimit where
  | frames (count : Int)
  | absent
deriving DecidableEq

namespace FrameLimit

def standard : FrameLimit := .frames 10000

/-- No limit makes fewer frames available than these. -/
def least : Nat := 1000

/-- Under a limit beyond this one no statement can run. -/
def greatest : Int := 2 ^ 31 - 1

/-- The frames that a statement may spend, or why none can run. -/
def budget : FrameLimit → Except Defect Nat
  | .frames count =>
    if greatest < count then .error .limitTooLarge else .ok (max least count.toNat)
  | .absent => .error .limitAbsent

theorem least_le_of_budget {limit : FrameLimit} {frames : Nat}
    (budgeted : limit.budget = .ok frames) : least ≤ frames := by
  cases limit with
  | absent => simp [budget] at budgeted
  | frames count =>
    by_cases large : greatest < count
    · simp [budget, large] at budgeted
    · simp only [budget, large, if_false, Except.ok.injEq] at budgeted
      omega

end FrameLimit

end Calculator

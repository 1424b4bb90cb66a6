namespace Calculator

/-- A key press, as far as the history goes. -/
inductive KeyPress where
  | up
  | down
  | other
deriving DecidableEq

/-- The input line: its text, the remembered lines, the position among them, and the number of key
presses that were left to someone else. -/
structure History where
  text : String := ""
  lines : List String := []
  index : Nat := 0
  passed : Nat := 0
deriving DecidableEq

namespace History

def type (history : History) (text : String) : History :=
  { history with text := text }

/-- Remember a line, unless it is empty or the last one again, and stand behind the last line. -/
def record (history : History) (line : String) : History :=
  let lines :=
    if line = "" || history.lines.getLast? = some line then history.lines
    else history.lines ++ [line]
  { history with lines := lines, index := lines.length }

/-- Show the line at the position; behind the last line the text is empty. -/
def showAt (history : History) (index : Nat) : History :=
  { history with index := index, text := (history.lines[index]?).getD "" }

/-- React to a key press. Without remembered lines, and for other keys, nothing is shown. -/
def press (history : History) (key : KeyPress) : History :=
  match key with
  | .other => { history with passed := history.passed + 1 }
  | .up =>
    if history.lines.isEmpty then { history with passed := history.passed + 1 }
    else history.showAt (history.index - 1)
  | .down =>
    if history.lines.isEmpty then { history with passed := history.passed + 1 }
    else history.showAt (min history.lines.length (history.index + 1))

end History

end Calculator

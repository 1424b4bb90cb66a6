import Calculator.Console.History
import Calculator.Console.Theme
import Calculator.Evaluation.Interpreter
import Calculator.Text.Lines

namespace Calculator

variable {σ : Type}

/-- A piece of the transcript; what was typed has no colour. -/
structure Entry where
  text : String
  colour : Option String
deriving DecidableEq

structure Console (σ : Type) where
  interpreter : Interpreter σ
  theme : Theme
  input : History := {}
  transcript : List Entry := []

namespace Console

def role : Except StatementFailure Answer → OutputRole
  | .ok (.number _) => .number
  | .ok (.note _) => .text
  | .error _ => .error

def outcomeText : Except StatementFailure Answer → String
  | .ok answer => answer.display
  | .error error => error.message

/-- Write a text, in the colour of its role if it has one. -/
def append (console : Console σ) (text : String) (role : Option OutputRole) : Console σ :=
  { console with
    transcript := console.transcript ++ [⟨text, role.map console.theme.shade.outputColour⟩] }

/-- Submit the input line: it is remembered, cleared, written to the transcript and fed to the
interpreter, and the outcome is written below it. -/
def submit (console : Console σ) : Console σ :=
  let line := console.input.text
  let input := (console.input.record line).type ""
  let console := { console with input := input }.append ("> " ++ line) none
  let (result, interpreter) := console.interpreter.feed line
  { console with interpreter := interpreter }.append (outcomeText result) (some (role result))

def reset (console : Console σ) : Console σ :=
  { console with interpreter := console.interpreter.reset }.append "<session reset>" (some .text)

def clear (console : Console σ) : Console σ :=
  { console with transcript := [] }

/-- Choose a theme for what is written from now on. -/
def chooseTheme (console : Console σ) (choice : ThemeChoice) : Console σ :=
  { console with theme := .choose choice }

def type (console : Console σ) (text : String) : Console σ :=
  { console with input := console.input.type text }

def press (console : Console σ) (key : KeyPress) : Console σ :=
  { console with input := console.input.press key }

def lines (console : Console σ) : List String :=
  Text.lines ("\n".intercalate (console.transcript.map (·.text)))

end Console

end Calculator

import Calculator.Text.Quoted
import Calculator.Token.Basic

/-! Themes of the console: which colours tokens, answers and surfaces have. There are a light and a
dark shade; the choice may be left to the system, which has the light one. A choice is saved by its
name, and a saved name that is none counts as leaving the choice to the system. -/

namespace Calculator

/-- One of the two sets of colours. -/
inductive Shade where
  | light
  | dark
deriving DecidableEq

namespace Shade

def name : Shade → String
  | .light => "light"
  | .dark => "dark"

/-- The colour of a kind of token, in hexadecimal; the end of a text has none. -/
def tokenColour? : Shade → Token.Kind → Option String
  | .light, .number => some "#b71c1c"
  | .light, .operator => some "#6a1b9a"
  | .light, .punctuation => some "#424242"
  | .light, .keyword => some "#0057b7"
  | .light, .word => some "#000000"
  | .light, .invalid => some "#d50000"
  | .dark, .number => some "#ce9178"
  | .dark, .operator => some "#c586c0"
  | .dark, .punctuation => some "#a0a0a0"
  | .dark, .keyword => some "#569cd6"
  | .dark, .word => some "#d4d4d4"
  | .dark, .invalid => some "#f44747"
  | _, .eof => none

/-- The colours of tokens, by the names of their kinds. -/
def tokenColours (shade : Shade) : List (String × String) :=
  Token.Kind.all.filterMap fun kind => (shade.tokenColour? kind).map (kind.name, ·)

end Shade

/-- What an answer is, as far as its colour goes. -/
inductive OutputRole where
  | number
  | text
  | error
deriving DecidableEq

namespace OutputRole

def name : OutputRole → String
  | .number => "number"
  | .text => "text"
  | .error => "error"

def all : List OutputRole := [.number, .text, .error]

end OutputRole

def Shade.outputColour : Shade → OutputRole → String
  | .light, .number => "#8d6e00"
  | .light, .text => "#1565c0"
  | .light, .error => "#c62828"
  | .dark, .number => "#dcdcaa"
  | .dark, .text => "#4fc1ff"
  | .dark, .error => "#f48771"

/-- A surface of the console, or the writing on it. -/
inductive Surface where
  | window
  | windowText
  | field
  | fieldText
  | button
  | buttonText
deriving DecidableEq

namespace Surface

/-- The name under which a toolkit knows a surface. -/
def name : Surface → String
  | .window => "Window"
  | .windowText => "WindowText"
  | .field => "Base"
  | .fieldText => "Text"
  | .button => "Button"
  | .buttonText => "ButtonText"

def all : List Surface := [.window, .windowText, .field, .fieldText, .button, .buttonText]

end Surface

/-- The colour of a surface: all writing is alike, and buttons are like fields. -/
def Shade.surfaceColour : Shade → Surface → String
  | .light, .window => "#ffffff"
  | .light, .field => "#ffffff"
  | .light, .button => "#ffffff"
  | .light, _ => "#000000"
  | .dark, .window => "#1e1e1e"
  | .dark, .field => "#252526"
  | .dark, .button => "#252526"
  | .dark, _ => "#e0e0e0"

/-- What can be chosen: a shade, or to follow the system. -/
inductive ThemeChoice where
  | fixed (shade : Shade)
  | system
deriving DecidableEq

namespace ThemeChoice

def name : ThemeChoice → String
  | .fixed shade => shade.name
  | .system => "system"

def all : List ThemeChoice := [.fixed .light, .fixed .dark, .system]

/-- The choice with a name. -/
def ofName? (text : String) : Option ThemeChoice :=
  all.find? (·.name = text)

def unknownMessage (text : String) : String :=
  Text.quoted text ++ " is not a valid ThemeMode"

def shade : ThemeChoice → Shade
  | .fixed shade => shade
  | .system => .light

end ThemeChoice

/-- The name of the choice that is saved, if one is, and the choice in force. -/
structure Theme where
  saved : Option String
  choice : ThemeChoice
deriving DecidableEq

namespace Theme

def load (saved : Option String) : Theme :=
  ⟨saved, (saved.bind ThemeChoice.ofName?).getD .system⟩

/-- The theme in which a choice was made and saved. -/
def choose (choice : ThemeChoice) : Theme :=
  ⟨some choice.name, choice⟩

def shade (theme : Theme) : Shade :=
  theme.choice.shade

end Theme

end Calculator

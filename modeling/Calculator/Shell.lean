import Calculator.Builtin.Standard
import Calculator.Evaluation.Interpreter
import Calculator.Text.Blank
import Calculator.Text.Lines

namespace Calculator

variable {σ : Type}

/-- The colours of a terminal, by the numbers that select them. -/
inductive Ink where
  | yellow
  | brightBlue
  | red
deriving DecidableEq

namespace Ink

def code : Ink → String
  | .yellow => "33"
  | .brightBlue => "94"
  | .red => "31"

end Ink

/-- How colours are shown: a sequence turns a colour on before a text, and another turns it off
behind the text. Where no colours can be shown, all sequences are empty. -/
structure Terminal where
  opening : Ink → String
  closing : String

namespace Terminal

/-- A terminal whose colours are selected by their numbers. -/
def standard : Terminal where
  opening ink := "\x1b[" ++ ink.code ++ "m"
  closing := "\x1b[0m"

def paint (terminal : Terminal) (ink : Ink) (text : String) : String :=
  terminal.opening ink ++ text ++ terminal.closing

/-- A text in a colour, if colours are wanted. -/
def paintIf (terminal : Terminal) (color : Bool) (ink : Ink) (text : String) : String :=
  if color then terminal.paint ink text else text

end Terminal

inductive Command where
  | help
  | exit
  | endOfInput
  | statement
deriving DecidableEq

namespace Command

def words : List String := ["EOF", "exit", "help"]

/-- The part of a text before its first space. -/
def firstWord (text : String) : String :=
  String.ofList (text.toList.takeWhile (· ≠ ' '))

def ofLine (line : String) : Command :=
  let word := firstWord (Text.trim line)
  if word = "help" then .help
  else if word = "exit" then .exit
  else if word = "EOF" then .endOfInput
  else .statement

end Command

/-- An interpreter at a terminal, with a choice of colours. -/
structure Shell (σ : Type) where
  interpreter : Interpreter σ
  color : Bool := true
  terminal : Terminal := .standard

namespace Shell

def greeting : String :=
  "calclang :: arithmetic with pattern-matched functions\nType 'help' for more information."

def prompt : String := "> "

def helpText : String :=
  "Statements:\n" ++
  "  1 + 2 * 3                 evaluate an expression\n" ++
  "  const x = 5               bind a global constant\n" ++
  "  let f(0) = 1              add a clause matching the literal 0\n" ++
  "  let f(n) = n * f(n - 1)   add a clause binding n\n" ++
  "Clauses are tried in the order they were defined; results of\n" ++
  "calls are cached for the rest of the session.\n" ++
  "\n" ++
  "Builtins:\n" ++ Standard.referenceText

def answerInk : Answer → Ink
  | .number _ => .yellow
  | .note _ => .brightBlue

def report (terminal : Terminal) (color : Bool) : Except StatementFailure Answer → String
  | .ok answer => terminal.paintIf color (answerInk answer) answer.display
  | .error error => terminal.paintIf color .red error.message

/-- Feed a line to the interpreter; the output is one line. -/
def runStatement (shell : Shell σ) (line : String) : String × Shell σ :=
  let (result, interpreter) := shell.interpreter.feed line
  (report shell.terminal shell.color result ++ "\n", { shell with interpreter := interpreter })

/-- Do what a line asks for; the output ends with a line feed, if there is any. -/
def runLine (shell : Shell σ) (line : String) : Command × String × Shell σ :=
  match Command.ofLine line with
  | .help => (.help, helpText ++ "\n", shell)
  | .exit => (.exit, "", shell)
  | .endOfInput => (.endOfInput, "\n", shell)
  | .statement =>
    let (output, shell) := shell.runStatement line
    (.statement, output, shell)

/-- Run lines after a prompt each, until one asks to leave; the end of the lines asks for it too.
The lines behind the last one that ran are left. -/
def runLines (shell : Shell σ) : List String → String × List String × Shell σ
  | [] => (prompt ++ "\n", [], shell)
  | line :: rest =>
    match shell.runLine line with
    | (.exit, output, shell) => (prompt ++ output, rest, shell)
    | (.endOfInput, output, shell) => (prompt ++ output, rest, shell)
    | (_, output, shell) =>
      let (more, left, shell) := shell.runLines rest
      (prompt ++ output ++ more, left, shell)

def loop (shell : Shell σ) (lines : List String) : String × List String × Shell σ :=
  let (output, left, shell) := shell.runLines lines
  (greeting ++ "\n" ++ output, left, shell)

/-- A typed line without the carriage returns and line feeds at its end. -/
def chomp (line : String) : String :=
  Text.trimEnd (fun c => c == '\r' || c == '\n') line

/-- The lines of a text that is piped into the shell. -/
def pipedLines (text : String) : List String :=
  (Text.inputLines text).map chomp

/-- The names known to the interpreter that start with a text. -/
def completions (shell : Shell σ) (start : String) : List String :=
  shell.interpreter.knownNames.filter fun name => start.toList.isPrefixOf name.toList

/-- The commands that start with a text, then the names that do. -/
def commandCompletions (shell : Shell σ) (start : String) : List String :=
  (Command.words.filter fun word => start.toList.isPrefixOf word.toList) ++
    shell.completions start

end Shell

end Calculator

import Calculator.CommandLine.Output
import Calculator.Token.Scan

namespace Calculator.CommandLine.TokenListing

inductive Key where
  | help
  | text
deriving DecidableEq

def textOption : OptionSpec Key := ⟨.text, ["-e", "--expr"], true⟩

def options : List (OptionSpec Key) := [⟨.help, ["-h", "--help"], false⟩, textOption]

def operandName : String := "path"

def program : String := "calc-lex"

def usage : String := "usage: calc-lex [-h] [-e EXPR] [path]\n"

def help : String :=
  "\n" ++
  "Lex calclang source\n" ++
  "\n" ++
  "positional arguments:\n" ++
  "  path                  Path to a statement file\n" ++
  "\n" ++
  "options:\n" ++
  "  -h, --help            show this help message and exit\n" ++
  "  -e EXPR, --expr EXPR  Lex this text instead of a file\n"

/-- What is listed: a text of the command line, or a file. -/
inductive Origin where
  | text (text : String)
  | file (path : String)
deriving DecidableEq

/-- Two arguments of which only one is allowed; the second one is blamed. -/
def conflict (second first : String) : Stop :=
  .usage (optionProblem second ("not allowed with argument " ++ first))

/-- Let one event take effect on what is known so far. A text that was left out is empty. -/
def apply (origin : Option Origin) : Event Key → Except Stop (Option Origin)
  | .operand path =>
    match origin with
    | some (.text _) => .error (conflict operandName textOption.display)
    | _ => .ok (some (.file path))
  | .option spec value =>
    match spec.key, origin with
    | .help, _ => .error .help
    | .text, some (.file _) => .error (conflict textOption.display operandName)
    | .text, _ => .ok (some (.text (value.getD "")))

def origin (argv : List String) : Except Stop Origin :=
  let reading := read options argv
  match reading.events.foldlM apply none with
  | .error stop => .error stop
  | .ok origin =>
    match reading.problem with
    | some problem => .error (.usage problem)
    | none =>
      match origin with
      | none =>
        .error (.usage ("one of the arguments " ++ operandName ++ " " ++ textOption.display ++
          " is required"))
      | some origin =>
        if reading.extras.isEmpty then .ok origin
        else .error (.usage (unrecognized reading.extras))

/-- The line about a token: its kind, its text in quotes, and its position. -/
def line (token : Token) : String :=
  token.kind.name.toUpper ++ "\t" ++ Text.quoted token.text ++ "\t(pos " ++ Nat.repr token.pos ++
    ")\n"

def listing (text : String) : Output :=
  { out := String.join ((Token.scan text).map line) }

def list (files : String → SourceFile) : Origin → Output
  | .text text => listing text
  | .file path =>
    match (files path).text with
    | .error .missing =>
      { out := "error: file not found: " ++ normalPath path ++ "\n", ending := .returned 1 }
    | .error (.obstructed obstacle) => .crash (.unreadable obstacle)
    | .ok text => listing text

/-- Run the command on its arguments and the files it can see. -/
def run (argv : List String) (files : String → SourceFile) : Output :=
  match origin argv with
  | .error stop => stop.output program usage help
  | .ok origin => list files origin

end Calculator.CommandLine.TokenListing

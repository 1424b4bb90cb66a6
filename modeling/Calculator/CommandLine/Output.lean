import Calculator.CommandLine.Arguments
import Calculator.CommandLine.SourceFile
import Calculator.Evaluation.Error

namespace Calculator.CommandLine

/-- A failure that a command does not report itself: of its file, of a statement, or of an option
whose value was left out. -/
inductive Crash where
  | unreadable (obstacle : Obstacle)
  | internal (defect : Defect)
  | statementLeftOut
  | policyLeftOut
deriving DecidableEq

/-- How a command ended: by itself, by its command line alone, or by a failure. -/
inductive Ending where
  | returned (code : Nat)
  | exited (code : Nat)
  | crashed (crash : Crash)
deriving DecidableEq

structure Output where
  out : String := ""
  err : String := ""
  ending : Ending := .returned 0
deriving DecidableEq

namespace Output

def after (text : String) (output : Output) : Output :=
  { output with out := text ++ output.out }

def crash (crash : Crash) : Output :=
  { ending := .crashed crash }

end Output

/-- Why a command does nothing but answer its command line. -/
inductive Stop where
  | help
  | usage (problem : String)
deriving DecidableEq

/-- The answer to a command line: the help, or a problem behind the usage. -/
def Stop.output (program usage help : String) : Stop → Output
  | .help => { out := usage ++ help, ending := .exited 0 }
  | .usage problem =>
    { err := usage ++ program ++ ": error: " ++ problem ++ "\n", ending := .exited 2 }

def unrecognized (extras : List String) : String :=
  "unrecognized arguments: " ++ " ".intercalate extras

end Calculator.CommandLine

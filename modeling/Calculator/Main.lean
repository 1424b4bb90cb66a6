import Calculator.Builtin.Random
import Calculator.CommandLine.Calculate
import Calculator.CommandLine.TokenListing

/-! The two commands. The executable lists tokens when it goes by the name of that command, and
evaluates statements otherwise. Only this module talks to the world: it reads the file or the lines
that a command asks for and writes what the command answers. -/

namespace Calculator.CommandLine

/-- What stands at a path of the file system. -/
def fileAt (path : String) : IO SourceFile := do
  if hasZero path then return .obstructed .zeroCharacter
  try
    return .bytes (← IO.FS.readBinFile (normalPath path))
  catch
    | .noFileOrDirectory .. => return .missing
    | .inappropriateType _ 20 _ => return .obstructed .behindFile
    | .invalidArgument .. => return .obstructed .tooLong
    | _ => return .obstructed .directory

/-- What is written about a failure that a command does not report itself. -/
def crashText : Crash → String
  | .unreadable .directory => "the path is a directory"
  | .unreadable .behindFile => "the path goes on behind a file"
  | .unreadable .tooLong => "the path is too long"
  | .unreadable .zeroCharacter => "the path holds a zero character"
  | .unreadable .undecodable => "the file is not UTF-8"
  | .internal defect => defect.kind ++ ": " ++ defect.message
  | .statementLeftOut => "a statement was left out"
  | .policyLeftOut => "the cache policy was left out"

/-- Write the output of a command; its ending becomes the exit code. -/
def emit (output : Output) : IO UInt32 := do
  (← IO.getStdout).putStr output.out
  let errors ← IO.getStderr
  errors.putStr output.err
  match output.ending with
  | .returned code => return code.toUInt32
  | .exited code => return code.toUInt32
  | .crashed crash => errors.putStr (crashText crash ++ "\n"); return 1

/-- Run typed lines until one asks to leave. -/
partial def interact {σ : Type} (shell : Shell σ) : IO Unit := do
  let screen ← IO.getStdout
  screen.putStr Shell.prompt
  screen.flush
  let typed ← (← IO.getStdin).getLine
  let line := if typed.isEmpty then "EOF" else Text.trimEnd (· == '\n') typed
  let (command, output, shell) := shell.runLine line
  screen.putStr output
  match command with
  | .exit => return
  | .endOfInput => return
  | _ => interact shell

def calculate (argv : List String) : IO UInt32 := do
  let generator := mkStdGen (← IO.rand 0 (2 ^ 30))
  let run := Calculate.run Standard.draw generator argv
  match Calculate.settings argv with
  | .error _ => emit (run (fun _ => .missing) "")
  | .ok settings =>
    match settings.statements, settings.input, settings.policy with
    | [], none, some policy =>
      let screen ← IO.getStdout
      screen.putStr (settings.started policy ++ settings.step "starting shell" ++ Shell.greeting ++
        "\n")
      let interpreter := settings.interpreter policy Standard.draw generator
      interact { interpreter := interpreter, color := settings.color }
      return 0
    | [], some path, _ =>
      let file ← fileAt path
      emit (run (fun _ => file) "")
    | _, _, _ => emit (run (fun _ => .missing) "")

def listTokens (argv : List String) : IO UInt32 := do
  match TokenListing.origin argv with
  | .ok (.file path) =>
    let file ← fileAt path
    emit (TokenListing.run argv fun _ => file)
  | _ => emit (TokenListing.run argv fun _ => .missing)

end Calculator.CommandLine

def main (argv : List String) : IO UInt32 := do
  if (← IO.appPath).fileName == some Calculator.CommandLine.TokenListing.program then
    Calculator.CommandLine.listTokens argv
  else Calculator.CommandLine.calculate argv

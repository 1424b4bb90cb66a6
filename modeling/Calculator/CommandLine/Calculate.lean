import Calculator.CommandLine.Output
import Calculator.Shell
import Calculator.Text.Integer

namespace Calculator.CommandLine.Calculate

variable {σ : Type}

inductive Key where
  | help
  | statement
  | noColor
  | noDefaults
  | cachePolicy
  | recursionLimit
  | verbose
deriving DecidableEq

def options : List (OptionSpec Key) := [
  ⟨.help, ["-h", "--help"], false⟩,
  ⟨.statement, ["-e", "--eval"], true⟩,
  ⟨.noColor, ["--no-color"], false⟩,
  ⟨.noDefaults, ["--no-defaults"], false⟩,
  ⟨.cachePolicy, ["--cache-policy"], true⟩,
  ⟨.recursionLimit, ["--recursion-limit"], true⟩,
  ⟨.verbose, ["--verbose"], false⟩]

def program : String := "calc"

def usage : String :=
  "usage: calc [-h] [-e STATEMENT] [--no-color] [--no-defaults]\n" ++
  "            [--cache-policy \x7bsession,redefine\x7d] [--recursion-limit N]\n" ++
  "            [--verbose]\n" ++
  "            [input]\n"

def help : String :=
  "\n" ++
  "Arithmetic expressions with constants and pattern-matched functions\n" ++
  "\n" ++
  "positional arguments:\n" ++
  "  input                 File of statements, one per line (default: interactive\n" ++
  "                        shell)\n" ++
  "\n" ++
  "options:\n" ++
  "  -h, --help            show this help message and exit\n" ++
  "  -e STATEMENT, --eval STATEMENT\n" ++
  "                        Evaluate STATEMENT and exit (repeatable, evaluated in\n" ++
  "                        order)\n" ++
  "  --no-color            Disable colored output\n" ++
  "  --no-defaults         Start without the default builtin functions and\n" ++
  "                        constants\n" ++
  "  --cache-policy \x7bsession,redefine\x7d\n" ++
  "                        'session' keeps call results forever; 'redefine' drops\n" ++
  "                        a function's results when a clause is added to it\n" ++
  "                        (default: session)\n" ++
  "  --recursion-limit N   Interpreter stack limit while a statement runs\n" ++
  "                        (default: 10000)\n" ++
  "  --verbose             Print progress steps\n"

/-- What a command line asks for. A statement, the policy and the limit may be left out although
their option was given. -/
structure Settings where
  input : Option String := none
  statements : List (Option String) := []
  color : Bool := true
  defaults : Bool := true
  policy : Option CachePolicy := some .session
  limit : FrameLimit := .standard
  verbose : Bool := false
deriving DecidableEq

/-- The value of an option is not among its choices. -/
def invalidPolicy (value : String) : String :=
  optionProblem "--cache-policy" ("invalid choice: " ++ Text.quoted value ++ " (choose from " ++
    ", ".intercalate (CachePolicy.all.map fun policy => Text.quoted policy.name) ++ ")")

def invalidLimit (value : String) : String :=
  optionProblem "--recursion-limit" ("invalid int value: " ++ Text.quoted value)

def Settings.apply (settings : Settings) : Event Key → Except Stop Settings
  | .operand text => .ok { settings with input := some text }
  | .option spec value =>
    match spec.key, value with
    | .help, _ => .error .help
    | .statement, _ => .ok { settings with statements := settings.statements ++ [value] }
    | .noColor, _ => .ok { settings with color := false }
    | .noDefaults, _ => .ok { settings with defaults := false }
    | .cachePolicy, none => .ok { settings with policy := none }
    | .cachePolicy, some text =>
      match CachePolicy.ofName? text with
      | some policy => .ok { settings with policy := some policy }
      | none => .error (.usage (invalidPolicy text))
    | .recursionLimit, none => .ok { settings with limit := .absent }
    | .recursionLimit, some text =>
      match Text.integer? text with
      | some limit => .ok { settings with limit := .frames limit }
      | none => .error (.usage (invalidLimit text))
    | .verbose, _ => .ok { settings with verbose := true }

def settings (argv : List String) : Except Stop Settings :=
  let reading := read options argv
  match reading.events.foldlM Settings.apply {} with
  | .error stop => .error stop
  | .ok settings =>
    match reading.problem with
    | some problem => .error (.usage problem)
    | none =>
      if reading.extras.isEmpty then .ok settings
      else .error (.usage (unrecognized reading.extras))

namespace Settings

/-- A line about progress, if such lines are wanted. -/
def step (settings : Settings) (text : String) : String :=
  if settings.verbose then "[calc] " ++ text ++ "...\n" else ""

/-- The line about a failure that ends the command. -/
def errorLine (settings : Settings) (terminal : Terminal) (text : String) : String :=
  terminal.paintIf settings.color .red ("[calc:error] " ++ text) ++ "\n"

def interpreter (settings : Settings) (policy : CachePolicy) (draw : σ → Binary64 × σ)
    (hidden : σ) : Interpreter σ :=
  if settings.defaults then
    .create (Standard.builtins draw) Standard.constants policy settings.limit hidden
  else .create {} {} policy settings.limit hidden

/-- The line about a statement that is about to run. -/
def statementStep (settings : Settings) (interpreter : Interpreter σ) (text : String) : String :=
  settings.step ("statement " ++ Nat.repr (interpreter.count + 1) ++ ": " ++ Text.trim text)

/-- Run statements in order, each answer on a line, up to the first failure; a statement that was
left out is one. -/
def runAll (settings : Settings) (terminal : Terminal) (interpreter : Interpreter σ) :
    List (Option String) → Output
  | [] => {}
  | none :: _ => .crash .statementLeftOut
  | some text :: rest =>
    let progress := settings.statementStep interpreter text
    match interpreter.feed text with
    | (.ok answer, interpreter) =>
      (settings.runAll terminal interpreter rest).after (progress ++ answer.display ++ "\n")
    | (.error (.rejected index cause), _) =>
      { out := progress
        err := settings.errorLine terminal (StatementFailure.rejected index cause).message
        ending := .returned 1 }
    | (.error (.internal defect), _) => (Output.crash (.internal defect)).after progress

/-- Run the statements of a file, one for each line that is not blank. -/
def runFile (settings : Settings) (terminal : Terminal) (interpreter : Interpreter σ)
    (path : String) (file : SourceFile) : Output :=
  match file.text with
  | .error .missing =>
    { err := settings.errorLine terminal ("file not found: " ++ normalPath path)
      ending := .returned 1 }
  | .error (.obstructed obstacle) => .crash (.unreadable obstacle)
  | .ok text =>
    let statements := (Text.lines text).filter fun line => !Text.allBlank line
    (settings.runAll terminal interpreter (statements.map some)).after
      (settings.step ("running " ++ normalPath path))

def runShell (settings : Settings) (terminal : Terminal) (interpreter : Interpreter σ)
    (lines : List String) : Output :=
  let shell : Shell σ :=
    { interpreter := interpreter, color := settings.color, terminal := terminal }
  { out := settings.step "starting shell" ++ (shell.loop lines).1 }

def started (settings : Settings) (policy : CachePolicy) : String :=
  settings.step ("session started (cache policy: " ++ policy.name ++ ")")

def run (settings : Settings) (terminal : Terminal) (draw : σ → Binary64 × σ) (hidden : σ)
    (files : String → SourceFile) (input : String) : Output :=
  match settings.policy with
  | none => .crash .policyLeftOut
  | some policy =>
    let interpreter := settings.interpreter policy draw hidden
    let output :=
      if settings.statements.isEmpty then
        match settings.input with
        | some path => settings.runFile terminal interpreter path (files path)
        | none => settings.runShell terminal interpreter (Text.inputLines input)
      else settings.runAll terminal interpreter settings.statements
    output.after (settings.started policy)

end Settings

/-- Run the command on its arguments, the files it can see, and the text that is typed. -/
def run (draw : σ → Binary64 × σ) (hidden : σ) (argv : List String)
    (files : String → SourceFile) (input : String) (terminal : Terminal := .standard) : Output :=
  match settings argv with
  | .error stop => stop.output program usage help
  | .ok settings => settings.run terminal draw hidden files input

end Calculator.CommandLine.Calculate

import Calculator.Evaluation.FrameLimit
import Calculator.Evaluation.Statement
import Calculator.Statement.Reader

namespace Calculator

variable {σ : Type}

/-- The builtins and constants that a session was given, its limit of frames, and the session with
the hidden state of the builtins. -/
structure Interpreter (σ : Type) where
  builtins : Table (Builtin σ)
  constants : Table Binary64
  limit : FrameLimit
  machine : Machine σ

namespace Interpreter

/-- A new session in which the constants are set. -/
def freshSession (constants : Table Binary64) (policy : CachePolicy) : Session :=
  { environment := { globals := Table.ofList constants.entries }, cache := { policy := policy } }

def create (builtins : Table (Builtin σ)) (constants : Table Binary64) (policy : CachePolicy)
    (limit : FrameLimit) (hidden : σ) : Interpreter σ where
  builtins := builtins
  constants := constants
  limit := limit
  machine := ⟨freshSession constants policy, hidden⟩

def session (interpreter : Interpreter σ) : Session :=
  interpreter.machine.session

def count (interpreter : Interpreter σ) : Nat :=
  interpreter.session.statements

/-- Start over with the same builtins, constants, policy and limit. The builtins keep their hidden
state. -/
def reset (interpreter : Interpreter σ) : Interpreter σ :=
  create interpreter.builtins interpreter.constants interpreter.session.cache.policy
    interpreter.limit interpreter.machine.hidden

/-- Do what a statement asks for without counting it. -/
def perform (interpreter : Interpreter σ) (frames : Nat) (statement : Option Statement) :
    Except Failure Answer × Interpreter σ :=
  let (result, machine) :=
    Statement.perform interpreter.builtins frames statement interpreter.machine
  (result, { interpreter with machine := machine })

def counted (interpreter : Interpreter σ) : Interpreter σ :=
  let session := interpreter.session
  let session := { session with statements := session.statements + 1 }
  { interpreter with machine := { interpreter.machine with session := session } }

/-- Read a text as a statement and do what it asks for, within a number of frames. -/
def run (interpreter : Interpreter σ) (frames : Nat) (text : String) :
    Except StatementFailure Answer × Interpreter σ :=
  match Statement.read frames text with
  | .error (.malformed error) =>
    (.error (.rejected interpreter.count (.malformed error)), interpreter)
  | .error .stackLimit => (.error (.rejected interpreter.count .stackLimit), interpreter)
  | .ok statement =>
    match interpreter.perform frames statement with
    | (.ok answer, after) => (.ok answer, after)
    | (.error failure, after) => (.error (failure.ofStatement interpreter.count), after)

/-- Count a text as a statement and run it; a limit that allows no statement to run is found after
the counting and before the reading. -/
def feed (interpreter : Interpreter σ) (text : String) :
    Except StatementFailure Answer × Interpreter σ :=
  let interpreter := interpreter.counted
  match interpreter.limit.budget with
  | .error defect => (.error (.internal defect), interpreter)
  | .ok frames => interpreter.run frames text

/-- Put a name into a strictly increasing list of names. -/
def insertName (name : String) : List String → List String
  | [] => [name]
  | other :: rest =>
    if name < other then name :: other :: rest
    else if name = other then other :: rest
    else other :: insertName name rest

/-- Every name that a statement could refer to, in increasing order. -/
def knownNames (interpreter : Interpreter σ) : List String :=
  (interpreter.session.environment.globals.names ++ interpreter.builtins.names ++
    interpreter.session.functions.names).foldr insertName []

end Interpreter

end Calculator

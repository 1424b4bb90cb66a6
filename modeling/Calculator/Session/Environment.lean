import Calculator.Session.Clause

/-! The stack of scopes. The global scope is always there; each call that is under way adds a local
one, and a name means the value in the innermost scope that has it, whoever opened that scope. -/

namespace Calculator

/-- The local scopes, the innermost first, and the global one. -/
structure Environment where
  locals : List Scope := []
  globals : Scope := {}
deriving DecidableEq

namespace Environment

def depth (environment : Environment) : Nat :=
  environment.locals.length + 1

def enter (environment : Environment) (scope : Scope) : Environment :=
  { environment with locals := scope :: environment.locals }

/-- Close the innermost local scope; the global one cannot be closed. -/
def leave? (environment : Environment) : Option (Scope × Environment) :=
  match environment.locals with
  | [] => none
  | scope :: rest => some (scope, { environment with locals := rest })

def find? (environment : Environment) (name : String) : Option Binary64 :=
  match environment.locals.findSome? (·.get? name) with
  | some value => some value
  | none => environment.globals.get? name

/-- Give a name a value in the global scope. -/
def define (environment : Environment) (name : String) (value : Binary64) : Environment :=
  { environment with globals := environment.globals.set name value }

@[simp] theorem leave?_enter (environment : Environment) (scope : Scope) :
    (environment.enter scope).leave? = some (scope, environment) :=
  rfl

/-- An open scope hides what is behind it for the names that it has. -/
theorem find?_enter (environment : Environment) (scope : Scope) (name : String) :
    (environment.enter scope).find? name = (scope.get? name).or (environment.find? name) := by
  unfold find? enter
  rw [List.findSome?_cons]
  cases scope.get? name <;> rfl

end Environment

end Calculator

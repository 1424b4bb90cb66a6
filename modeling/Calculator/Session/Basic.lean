import Calculator.Session.ResultCache
import Calculator.Session.Environment

namespace Calculator

/-- Scopes, functions with their clauses, results of calls, and the number of statements so far. -/
structure Session where
  environment : Environment := {}
  functions : Table (List Clause) := {}
  cache : ResultCache := {}
  statements : Nat := 0

namespace Session

/-- The clauses of a function, in the order of their definition. -/
def clauses (session : Session) (name : String) : List Clause :=
  (session.functions.get? name).getD []

/-- Add a clause behind those that a function has. -/
def appendClause (session : Session) (name : String) (clause : Clause) : Session :=
  { session with
    functions := session.functions.set name (session.clauses name ++ [clause])
    cache := session.cache.redefined name }

def remember (session : Session) (key : CallKey) (value : Binary64) : Session :=
  { session with cache := session.cache.insert key value }

@[simp] theorem clauses_appendClause_self (session : Session) (name : String) (clause : Clause) :
    (session.appendClause name clause).clauses name = session.clauses name ++ [clause] := by
  simp [appendClause, clauses]

theorem clauses_appendClause_of_ne (session : Session) {name other : String}
    (different : other ≠ name) (clause : Clause) :
    (session.appendClause name clause).clauses other = session.clauses other := by
  simp [appendClause, clauses, Table.get?_set_of_ne _ different]

end Session

end Calculator

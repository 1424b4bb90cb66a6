namespace Calculator

/-- Entries in the order of their first insertion. -/
structure Table (α : Type) where
  entries : List (String × α) := []
deriving DecidableEq

namespace Table

variable {α : Type}

def get? (table : Table α) (name : String) : Option α :=
  table.entries.lookup name

/-- The names that have a value, in the order of their first insertion. -/
def names (table : Table α) : List String :=
  table.entries.map (·.1)

/-- Entries in which a name has the given value. -/
def setEntry (name : String) (value : α) : List (String × α) → List (String × α)
  | [] => [(name, value)]
  | (other, old) :: rest =>
    if name = other then (name, value) :: rest else (other, old) :: setEntry name value rest

def set (table : Table α) (name : String) (value : α) : Table α :=
  ⟨setEntry name value table.entries⟩

/-- The table of a list of entries, in which a later entry replaces an earlier one. -/
def ofList (entries : List (String × α)) : Table α :=
  entries.foldl (fun table entry => table.set entry.1 entry.2) ⟨[]⟩

private theorem lookup_setEntry_self (name : String) (value : α) (entries : List (String × α)) :
    (setEntry name value entries).lookup name = some value := by
  induction entries with
  | nil => simp [setEntry]
  | cons entry rest ih =>
    obtain ⟨other, old⟩ := entry
    by_cases same : name = other
    · simp [setEntry, same]
    · have unequal : (name == other) = false := by simpa using same
      simp [setEntry, same, List.lookup_cons, unequal, ih]

private theorem lookup_setEntry_other {name other : String} (different : other ≠ name) (value : α)
    (entries : List (String × α)) :
    (setEntry name value entries).lookup other = entries.lookup other := by
  induction entries with
  | nil =>
    have unequal : (other == name) = false := by simpa using different
    simp [setEntry, List.lookup_cons, unequal]
  | cons entry rest ih =>
    obtain ⟨key, old⟩ := entry
    by_cases same : name = key
    · subst same
      have unequal : (other == name) = false := by simpa using different
      simp [setEntry, List.lookup_cons, unequal]
    · simp [setEntry, same, List.lookup_cons, ih]

@[simp] theorem get?_set_self (table : Table α) (name : String) (value : α) :
    (table.set name value).get? name = some value :=
  lookup_setEntry_self name value table.entries

theorem get?_set_of_ne (table : Table α) {name other : String} (different : other ≠ name)
    (value : α) : (table.set name value).get? other = table.get? other :=
  lookup_setEntry_other different value table.entries

end Table

end Calculator

import Calculator.Binary64.Basic

/-! Results of calls. A key is the name of a function with its arguments, the sign of a zero being
dropped, so that calls with equal arguments have the same key. -/

namespace Calculator

/-- When results are forgotten: never, or when their function gets another clause. -/
inductive CachePolicy where
  | session
  | redefine
deriving DecidableEq

namespace CachePolicy

def name : CachePolicy → String
  | .session => "session"
  | .redefine => "redefine"

def all : List CachePolicy := [.session, .redefine]

def ofName? (text : String) : Option CachePolicy :=
  all.find? (·.name = text)

def unknownMessage (text : String) : String :=
  "unknown cache policy '" ++ text ++ "'"

end CachePolicy

/-- What a result is kept under. -/
structure CallKey where
  name : String
  args : List Binary64

namespace CallKey

def sameArgs : List Binary64 → List Binary64 → Bool
  | [], [] => true
  | first :: rest, other :: others => decide (first = other) && sameArgs rest others
  | _, _ => false

theorem sameArgs_iff {args others : List Binary64} :
    sameArgs args others = true ↔ args = others := by
  induction args generalizing others with
  | nil => cases others <;> simp [sameArgs]
  | cons first rest ih => cases others <;> simp [sameArgs, ih]

theorem ext_iff {key other : CallKey} :
    key = other ↔ sameArgs key.args other.args = true ∧ key.name = other.name := by
  rw [sameArgs_iff]
  cases key
  cases other
  simp [and_comm]

instance : DecidableEq CallKey := fun _ _ =>
  decidable_of_iff _ ext_iff.symm

end CallKey

def CallKey.ofCall (name : String) (args : List Binary64) : CallKey :=
  ⟨name, args.map Binary64.dropZeroSign⟩

/-- The results of calls, each key once. -/
structure ResultCache where
  policy : CachePolicy := .session
  entries : List (CallKey × Binary64) := []
deriving DecidableEq

namespace ResultCache

def size (cache : ResultCache) : Nat :=
  cache.entries.length

def search? (key : CallKey) : List (CallKey × Binary64) → Option Binary64
  | [] => none
  | (other, value) :: rest => if key = other then some value else search? key rest

def find? (cache : ResultCache) (key : CallKey) : Option Binary64 :=
  search? key cache.entries

/-- Replace the result of a key that is there. -/
def replaceEntry (key : CallKey) (value : Binary64) :
    List (CallKey × Binary64) → List (CallKey × Binary64)
  | [] => []
  | (other, old) :: rest =>
    if key = other then (key, value) :: rest else (other, old) :: replaceEntry key value rest

/-- Keep the result of a call, in place of an earlier one. -/
def insert (cache : ResultCache) (key : CallKey) (value : Binary64) : ResultCache :=
  { cache with
    entries :=
      if (cache.find? key).isSome then replaceEntry key value cache.entries
      else (key, value) :: cache.entries }

def forget (cache : ResultCache) (name : String) : ResultCache :=
  { cache with entries := cache.entries.filter (·.1.name ≠ name) }

def countOf (cache : ResultCache) (name : String) : Nat :=
  cache.entries.countP (·.1.name = name)

/-- What a further clause of a function does to its results. -/
def redefined (cache : ResultCache) (name : String) : ResultCache :=
  match cache.policy with
  | .session => cache
  | .redefine => cache.forget name

private theorem search?_replaceEntry_self {key : CallKey} {entries : List (CallKey × Binary64)}
    (present : (search? key entries).isSome) (value : Binary64) :
    search? key (replaceEntry key value entries) = some value := by
  induction entries with
  | nil => simp [search?] at present
  | cons entry rest ih =>
    obtain ⟨other, old⟩ := entry
    by_cases same : key = other
    · simp [replaceEntry, search?, same]
    · simp only [search?, same, if_false] at present
      simp [replaceEntry, search?, same, ih present]

private theorem search?_replaceEntry_other {key other : CallKey} (different : other ≠ key)
    (value : Binary64) (entries : List (CallKey × Binary64)) :
    search? other (replaceEntry key value entries) = search? other entries := by
  induction entries with
  | nil => rfl
  | cons entry rest ih =>
    obtain ⟨first, old⟩ := entry
    by_cases same : key = first
    · subst same
      simp [replaceEntry, search?, different]
    · simp [replaceEntry, search?, same, ih]

@[simp] theorem find?_insert_self (cache : ResultCache) (key : CallKey) (value : Binary64) :
    (cache.insert key value).find? key = some value := by
  unfold insert find?
  split
  · rename_i present
    exact search?_replaceEntry_self present value
  · simp [search?]

theorem find?_insert_of_ne (cache : ResultCache) {key other : CallKey} (different : other ≠ key)
    (value : Binary64) : (cache.insert key value).find? other = cache.find? other := by
  unfold insert find?
  split
  · exact search?_replaceEntry_other different value cache.entries
  · simp [search?, different]

private theorem search?_filter (name : String) (key : CallKey)
    (entries : List (CallKey × Binary64)) :
    search? key (entries.filter (·.1.name ≠ name)) =
      if key.name = name then none else search? key entries := by
  induction entries with
  | nil => simp [search?]
  | cons entry rest ih =>
    obtain ⟨other, value⟩ := entry
    by_cases dropped : other.name = name
    · rw [List.filter_cons_of_neg (by simpa using dropped), ih]
      by_cases same : key = other
      · simp [same, dropped]
      · simp [search?, same]
    · rw [List.filter_cons_of_pos (by simpa using dropped)]
      by_cases same : key = other
      · simp [search?, same, dropped]
      · simpa [search?, same] using ih

theorem find?_forget (cache : ResultCache) (name : String) (key : CallKey) :
    (cache.forget name).find? key = if key.name = name then none else cache.find? key :=
  search?_filter name key cache.entries

end ResultCache

end Calculator

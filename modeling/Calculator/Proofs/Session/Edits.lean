import Mathlib.Data.List.Induction
import Calculator.Proofs.Evaluation.Agreement

/-! What the results and the clauses of a session are by the history of its edits. A call has a
result if one was stored for an equal call and nothing has dropped the results of its function
since; it is the one that was stored last. So the results can be told, and counted, from the history
alone, and the clauses of a function are those that were added to it. -/

namespace Calculator

/-- Some event has the one property, and all events behind it have the other. -/
def Since {α : Type} (holds quiet : α → Prop) (events : List α) : Prop :=
  ∃ before event after, events = before ++ event :: after ∧ holds event ∧
    ∀ later ∈ after, quiet later

theorem not_since_nil {α : Type} {holds quiet : α → Prop} : ¬Since holds quiet [] := by
  rintro ⟨before, event, after, split, -⟩
  simp at split

theorem since_concat {α : Type} {holds quiet : α → Prop} {events : List α} {last : α} :
    Since holds quiet (events ++ [last]) ↔ holds last ∨ Since holds quiet events ∧ quiet last := by
  constructor
  · rintro ⟨before, event, after, split, present, silent⟩
    rcases List.eq_nil_or_concat after with rfl | ⟨between, final, rfl⟩
    · obtain ⟨-, same⟩ := List.append_inj' split rfl
      cases same
      exact .inl present
    · rw [List.concat_eq_append] at split silent
      rw [← List.cons_append, ← List.append_assoc] at split
      obtain ⟨rfl, same⟩ := List.append_inj' split rfl
      cases same
      obtain ⟨inner, outer⟩ := List.forall_mem_append.mp silent
      exact .inr ⟨⟨before, event, between, rfl, present, inner⟩,
        List.forall_mem_singleton.mp outer⟩
  · rintro (present | ⟨⟨before, event, after, rfl, present, silent⟩, still⟩)
    · exact ⟨events, last, [], rfl, present, by simp⟩
    · refine ⟨before, event, after ++ [last], by simp, present, ?_⟩
      exact List.forall_mem_append.mpr ⟨silent, List.forall_mem_singleton.mpr still⟩

/-- No argument of the call is nan. -/
def Call.Numeric (call : Call) : Prop :=
  ∀ x ∈ call.args, x.isNaN = false

instance (call : Call) : Decidable call.Numeric :=
  inferInstanceAs (Decidable (∀ x ∈ call.args, x.isNaN = false))

theorem Call.Equal.numeric {first second : Call} (equal : first.Equal second) :
    second.Numeric := by
  have swapped : List.Forall₂ (fun y x => y.isNaN = false ∧ x.equal y = true) second.args
      first.args := by
    apply List.Forall₂.flip
    apply equal.2.imp
    intro x y same
    refine ⟨?_, same⟩
    simp only [Binary64.equal, Bool.and_eq_true, Bool.not_eq_true'] at same
    exact same.1.2
  exact ((List.forall₂_and_left _ _).mp swapped).1

namespace ResultCache

def keys (cache : ResultCache) : List CallKey :=
  cache.entries.map (·.1)

private theorem mem_keys_search {key : CallKey} {entries : List (CallKey × Binary64)} :
    key ∈ entries.map (·.1) ↔ (search? key entries).isSome = true := by
  induction entries with
  | nil => simp [search?]
  | cons entry rest ih =>
    obtain ⟨other, value⟩ := entry
    by_cases same : key = other
    · simp [search?, same]
    · rw [List.map_cons, List.mem_cons, search?, if_neg same, ih]
      simp [same]

theorem mem_keys_iff {cache : ResultCache} {key : CallKey} :
    key ∈ cache.keys ↔ (cache.find? key).isSome = true :=
  mem_keys_search

private theorem map_replaceEntry (key : CallKey) (value : Binary64)
    (entries : List (CallKey × Binary64)) :
    (replaceEntry key value entries).map (·.1) = entries.map (·.1) := by
  induction entries with
  | nil => rfl
  | cons entry rest ih =>
    obtain ⟨other, old⟩ := entry
    by_cases same : key = other
    · simp [replaceEntry, same]
    · simp [replaceEntry, same, ih]

/-- A result in place of an earlier one has the key of that one. -/
theorem keys_insert (cache : ResultCache) (key : CallKey) (value : Binary64) :
    (cache.insert key value).keys = if key ∈ cache.keys then cache.keys else key :: cache.keys := by
  by_cases present : (cache.find? key).isSome = true
  · rw [if_pos (mem_keys_iff.mpr present), keys, insert, if_pos present]
    exact map_replaceEntry key value cache.entries
  · rw [if_neg (mt mem_keys_iff.mp present), keys, insert, if_neg present]
    rfl

theorem keys_forget (cache : ResultCache) (name : String) :
    (cache.forget name).keys = cache.keys.filter (·.name ≠ name) := by
  rw [keys, keys, List.filter_map]
  rfl

theorem size_eq (cache : ResultCache) : cache.size = cache.keys.length :=
  (List.length_map _).symm

theorem countOf_eq (cache : ResultCache) (name : String) :
    cache.countOf name = cache.keys.countP (·.name = name) := by
  rw [keys, List.countP_map]
  rfl

/-- The results belong to calls without nan, each key once. -/
def OfCalls (cache : ResultCache) : Prop :=
  cache.keys.Nodup ∧ ∃ calls : List Call, (∀ call ∈ calls, call.Numeric) ∧
    cache.keys = calls.map Call.key

namespace OfCalls

variable {cache : ResultCache}

theorem insert (keyed : cache.OfCalls) {call : Call} (numeric : call.Numeric) (value : Binary64) :
    (cache.insert call.key value).OfCalls := by
  rw [OfCalls, keys_insert]
  split
  · exact keyed
  · rename_i new
    obtain ⟨apart, calls, numbers, same⟩ := keyed
    exact ⟨List.nodup_cons.mpr ⟨new, apart⟩, call :: calls,
      List.forall_mem_cons.mpr ⟨numeric, numbers⟩, congrArg (call.key :: ·) same⟩

theorem forget (keyed : cache.OfCalls) (name : String) : (cache.forget name).OfCalls := by
  obtain ⟨apart, calls, numbers, same⟩ := keyed
  rw [OfCalls, keys_forget]
  refine ⟨apart.filter _, calls.filter (·.name ≠ name), ?_, ?_⟩
  · exact fun call member => numbers call (List.mem_of_mem_filter member)
  · rw [same, List.filter_map]
    rfl

end OfCalls

end ResultCache

namespace Session

/-- What can be done to the results and clauses of a session. -/
inductive Edit where
  | store (call : Call) (value : Binary64)
  | invalidate (name : String)
  | addClause (name : String) (clause : Clause)

def edit (session : Session) : Edit → Session
  | .store call value => session.remember call.key value
  | .invalidate name => { session with cache := session.cache.forget name }
  | .addClause name clause => session.appendClause name clause

def editAll (session : Session) (edits : List Edit) : Session :=
  edits.foldl edit session

/-- A session with a policy in which nothing was done yet. -/
def unedited (policy : CachePolicy) : Session :=
  { cache := { policy := policy } }

theorem editAll_concat (session : Session) (edits : List Edit) (last : Edit) :
    session.editAll (edits ++ [last]) = (session.editAll edits).edit last :=
  List.foldl_append

namespace Edit

/-- The edit drops all results of a function: it asks for that or, under the redefine policy, adds a
clause to the function. -/
def Drops (policy : CachePolicy) (name : String) : Edit → Prop
  | .store _ _ => False
  | .invalidate other => other = name
  | .addClause other _ => policy = .redefine ∧ other = name

/-- The edit stores a value for an equal call. -/
def StoresValue (call : Call) (value : Binary64) (edit : Edit) : Prop :=
  ∃ other, edit = .store other value ∧ other.Equal call

/-- The edit stores some value for an equal call. -/
def Stores (call : Call) (edit : Edit) : Prop :=
  ∃ value, edit.StoresValue call value

/-- The clause that the edit adds to a function, if it does. -/
def clauseFor? (name : String) : Edit → Option Clause
  | .store _ _ => none
  | .invalidate _ => none
  | .addClause other clause => if other = name then some clause else none

end Edit

/-- A result was stored for an equal call after the last edit that dropped results of the
function. -/
def Stored (policy : CachePolicy) (edits : List Edit) (call : Call) : Prop :=
  Since (·.Stores call) (fun later => ¬later.Drops policy call.name) edits

theorem Stored.numeric {policy : CachePolicy} {edits : List Edit} {call : Call}
    (stored : Stored policy edits call) : call.Numeric := by
  obtain ⟨_, _, _, _, ⟨_, _, _, equal⟩, _⟩ := stored
  exact equal.numeric

/-- The value was stored for an equal call, and since then results of the function were not dropped
and no other value was stored. -/
def LastStored (policy : CachePolicy) (edits : List Edit) (call : Call) (value : Binary64) : Prop :=
  Since (·.StoresValue call value)
    (fun later => ¬later.Drops policy call.name ∧ ¬later.Stores call) edits

/-- The calls are those for which a result is stored, one of each that are equal. -/
structure Represented (policy : CachePolicy) (edits : List Edit) (calls : List Call) : Prop where
  distinct : calls.Pairwise fun first second => ¬first.Equal second
  stored : ∀ call ∈ calls, Stored policy edits call
  complete : ∀ call, Stored policy edits call → ∃ other ∈ calls, other.Equal call

section Step

variable {session : Session} {edit : Edit} {call : Call}

theorem edit_policy (session : Session) (edit : Edit) :
    (session.edit edit).cache.policy = session.cache.policy := by
  cases edit with
  | addClause name clause =>
    simp only [Session.edit, appendClause, ResultCache.redefined]
    split <;> rfl
  | _ => rfl

theorem find?_edit_of_drops {name : String} (drops : edit.Drops session.cache.policy name)
    {key : CallKey} (named : key.name = name) : (session.edit edit).cache.find? key = none := by
  cases edit with
  | store other value => exact drops.elim
  | invalidate other =>
    rw [Session.edit, ResultCache.find?_forget, if_pos (named.trans drops.symm)]
  | addClause other clause =>
    simp only [Session.edit, appendClause, ResultCache.redefined, drops.1]
    rw [ResultCache.find?_forget, if_pos (named.trans drops.2.symm)]

theorem find?_edit_of_storesValue {value : Binary64} (stores : edit.StoresValue call value) :
    (session.edit edit).cache.find? call.key = some value := by
  obtain ⟨other, rfl, equal⟩ := stores
  rw [← equal.key_eq]
  exact ResultCache.find?_insert_self session.cache other.key value

theorem find?_edit_of_quiet (numeric : call.Numeric)
    (kept : ¬edit.Drops session.cache.policy call.name) (silent : ¬edit.Stores call) :
    (session.edit edit).cache.find? call.key = session.cache.find? call.key := by
  cases edit with
  | store other value =>
    have different : call.key ≠ other.key := by
      intro same
      exact silent ⟨value, other, rfl, (Call.key_eq_iff numeric).mp same.symm⟩
    exact ResultCache.find?_insert_of_ne session.cache different value
  | invalidate other =>
    have different : call.key.name ≠ other := fun same => kept same.symm
    rw [Session.edit, ResultCache.find?_forget, if_neg different]
  | addClause other clause =>
    simp only [Session.edit, appendClause, ResultCache.redefined]
    split
    · rfl
    · rename_i policy
      have different : call.key.name ≠ other := fun same => kept ⟨policy, same.symm⟩
      rw [ResultCache.find?_forget, if_neg different]

theorem isSome_find?_edit_iff (numeric : call.Numeric) :
    ((session.edit edit).cache.find? call.key).isSome = true ↔
      edit.Stores call ∨ (session.cache.find? call.key).isSome = true ∧
        ¬edit.Drops session.cache.policy call.name := by
  by_cases stores : edit.Stores call
  · obtain ⟨value, stored⟩ := stores
    simp [find?_edit_of_storesValue stored, show edit.Stores call from ⟨value, stored⟩]
  · by_cases drops : edit.Drops session.cache.policy call.name
    · have gone : (session.edit edit).cache.find? call.key = none := find?_edit_of_drops drops rfl
      simp [gone, stores, drops]
    · simp [find?_edit_of_quiet numeric drops stores, stores, drops]

theorem find?_edit_eq_some_iff (numeric : call.Numeric) {value : Binary64} :
    (session.edit edit).cache.find? call.key = some value ↔
      edit.StoresValue call value ∨ session.cache.find? call.key = some value ∧
        ¬edit.Drops session.cache.policy call.name ∧ ¬edit.Stores call := by
  by_cases stores : edit.Stores call
  · have only : edit.StoresValue call value ↔
        (session.edit edit).cache.find? call.key = some value := by
      refine ⟨find?_edit_of_storesValue, fun found => ?_⟩
      obtain ⟨other, stored⟩ := stores
      rw [find?_edit_of_storesValue stored] at found
      cases found
      exact stored
    simp [only, stores]
  · have other : ¬edit.StoresValue call value := fun stored => stores ⟨value, stored⟩
    by_cases drops : edit.Drops session.cache.policy call.name
    · have gone : (session.edit edit).cache.find? call.key = none := find?_edit_of_drops drops rfl
      simp [gone, other, drops]
    · simp [find?_edit_of_quiet numeric drops stores, other, stores, drops]

theorem ofCalls_edit (keyed : session.cache.OfCalls)
    (defined : ∀ call value, edit = .store call value → call.Numeric) :
    (session.edit edit).cache.OfCalls := by
  cases edit with
  | store call value => exact keyed.insert (defined call value rfl) value
  | invalidate name => exact keyed.forget name
  | addClause name clause =>
    simp only [Session.edit, appendClause, ResultCache.redefined]
    split
    · exact keyed
    · exact keyed.forget name

theorem clauses_edit (session : Session) (edit : Edit) (name : String) :
    (session.edit edit).clauses name = session.clauses name ++ (edit.clauseFor? name).toList := by
  cases edit with
  | addClause other clause =>
    by_cases same : other = name
    · subst same
      simp [Session.edit, Edit.clauseFor?]
    · rw [Session.edit, clauses_appendClause_of_ne session (Ne.symm same), Edit.clauseFor?,
        if_neg same, Option.toList_none, List.append_nil]
  | _ => exact (List.append_nil _).symm

end Step

section Run

variable (policy : CachePolicy) (edits : List Edit)

theorem editAll_policy : ((unedited policy).editAll edits).cache.policy = policy := by
  induction edits using List.reverseRecOn with
  | nil => rfl
  | append_singleton edits last ih => rw [editAll_concat, edit_policy, ih]

theorem isSome_find?_editAll_iff {call : Call} (numeric : call.Numeric) :
    (((unedited policy).editAll edits).cache.find? call.key).isSome = true ↔
      Stored policy edits call := by
  induction edits using List.reverseRecOn with
  | nil => exact iff_of_false Bool.false_ne_true not_since_nil
  | append_singleton edits last ih =>
    rw [editAll_concat, isSome_find?_edit_iff numeric, editAll_policy, ih, Stored, Stored,
      since_concat]

theorem find?_editAll_eq_some_iff {call : Call} (numeric : call.Numeric) {value : Binary64} :
    ((unedited policy).editAll edits).cache.find? call.key = some value ↔
      LastStored policy edits call value := by
  induction edits using List.reverseRecOn with
  | nil => exact iff_of_false nofun not_since_nil
  | append_singleton edits last ih =>
    rw [editAll_concat, find?_edit_eq_some_iff numeric, editAll_policy, ih, LastStored, LastStored,
      since_concat]

theorem clauses_editAll (name : String) :
    ((unedited policy).editAll edits).clauses name = edits.filterMap (·.clauseFor? name) := by
  induction edits using List.reverseRecOn with
  | nil => rfl
  | append_singleton edits last ih =>
    rw [editAll_concat, clauses_edit, ih, List.filterMap_append]
    cases last <;> rfl

variable {edits} (defined : ∀ call value, .store call value ∈ edits → call.Numeric)

include defined

theorem ofCalls_editAll : ((unedited policy).editAll edits).cache.OfCalls := by
  induction edits using List.reverseRecOn with
  | nil => exact ⟨List.nodup_nil, [], nofun, rfl⟩
  | append_singleton edits last ih =>
    rw [editAll_concat]
    apply ofCalls_edit
    · exact ih fun call value member => defined call value (List.mem_append_left _ member)
    · rintro call value rfl
      exact defined call value (by simp)

theorem exists_represented : ∃ calls, Represented policy edits calls := by
  obtain ⟨apart, calls, numbers, same⟩ := ofCalls_editAll policy defined
  have stored {call : Call} (numeric : call.Numeric) :
      call.key ∈ calls.map Call.key ↔ Stored policy edits call := by
    rw [← same, ResultCache.mem_keys_iff, isSome_find?_editAll_iff policy edits numeric]
  refine ⟨calls, ?_, fun call member => ?_, fun call present => ?_⟩
  · rw [same] at apart
    apply (List.pairwise_map.mp apart).imp
    exact fun different equal => different equal.key_eq
  · exact (stored (numbers call member)).mp (List.mem_map_of_mem member)
  · have numeric := present.numeric
    obtain ⟨other, member, shared⟩ := List.mem_map.mp ((stored numeric).mpr present)
    exact ⟨other, member, (Call.key_eq_iff numeric).mp shared⟩

/-- Calls that represent those with results have the keys of the results. -/
theorem Represented.perm_keys {calls : List Call} (represented : Represented policy edits calls) :
    (calls.map Call.key).Perm ((unedited policy).editAll edits).cache.keys := by
  obtain ⟨apart, others, numbers, same⟩ := ofCalls_editAll policy defined
  have stored {call : Call} (numeric : call.Numeric) :
      call.key ∈ ((unedited policy).editAll edits).cache.keys ↔ Stored policy edits call :=
    ResultCache.mem_keys_iff.trans (isSome_find?_editAll_iff policy edits numeric)
  have distinct : (calls.map Call.key).Nodup := by
    apply List.pairwise_map.mpr
    apply represented.distinct.imp_of_mem
    intro first second _ member different shared
    have numeric := (represented.stored second member).numeric
    exact different ((Call.key_eq_iff numeric).mp shared)
  apply (List.perm_ext_iff_of_nodup distinct apart).mpr
  intro key
  constructor
  · intro member
    obtain ⟨call, present, rfl⟩ := List.mem_map.mp member
    have found := represented.stored call present
    exact (stored found.numeric).mpr found
  · intro member
    obtain ⟨call, present, rfl⟩ := List.mem_map.mp (same ▸ member)
    obtain ⟨other, chosen, equal⟩ :=
      represented.complete call ((stored (numbers call present)).mp member)
    exact List.mem_map.mpr ⟨other, chosen, equal.key_eq⟩

end Run

/-- The results and clauses of a session are those of its history. Edit a new session in any way
that stores no result for a call with nan. Then a call without nan has a result exactly if one was
stored for an equal call after the last edit that dropped the results of its function, and that is
the value that was stored last. The number of results is the number of calls that have one, equal
ones being one call; as many of these as are of a function are dropped when its results are
invalidated, and the results of all others stay as they are. The clauses of a function are those
that were added to it, in order. -/
theorem results_follow_edits (policy : CachePolicy) (edits : List Edit)
    (defined : ∀ call value, .store call value ∈ edits → call.Numeric) (session : Session)
    (reached : (unedited policy).editAll edits = session) :
    (∀ call : Call, call.Numeric →
      ((session.cache.find? call.key).isSome = true ↔ Stored policy edits call) ∧
        ∀ value, session.cache.find? call.key = some value ↔
          LastStored policy edits call value) ∧
      (∃ calls, Represented policy edits calls) ∧
      (∀ calls, Represented policy edits calls →
        session.cache.size = calls.length ∧
          ∀ name, session.cache.countOf name = calls.countP (·.name = name)) ∧
      (∀ name key, (session.edit (.invalidate name)).cache.find? key =
        if key.name = name then none else session.cache.find? key) ∧
      ∀ name, session.clauses name = edits.filterMap (·.clauseFor? name) := by
  subst reached
  refine ⟨fun call numeric => ?_, exists_represented policy defined, fun calls represented => ?_,
    fun name key => ResultCache.find?_forget _ name key, clauses_editAll policy edits⟩
  · exact ⟨isSome_find?_editAll_iff policy edits numeric,
      fun value => find?_editAll_eq_some_iff policy edits numeric⟩
  · have keys := represented.perm_keys policy defined
    constructor
    · rw [ResultCache.size_eq, ← keys.length_eq, List.length_map]
    · intro name
      rw [ResultCache.countOf_eq, ← keys.countP_eq, List.countP_map]
      rfl

end Session

/-- Results of two functions, one of which gets a clause; a result of the other is replaced by a
zero, under a negative zero. -/
def layeredEdits : List Session.Edit :=
  [.store ⟨"f", [.zero false]⟩ (.ofInt 1), .store ⟨"g", [.ofInt 5]⟩ (.ofInt 3),
    .addClause "g" ⟨[.bind "x"], .var "x" none⟩, .store ⟨"f", [.zero true]⟩ (.zero false),
    .store ⟨"f", [.zero false, .ofInt 1]⟩ (.ofInt 2)]

/-- Under the redefine policy the clause drops one result; the zero is a result, and there are two
for the function without the clause. -/
theorem zero_last_stored :
    (∀ call value, .store call value ∈ layeredEdits → call.Numeric) ∧
      Session.LastStored .redefine layeredEdits ⟨"f", [.zero false]⟩ (.zero false) ∧
      ¬Session.Stored .redefine layeredEdits ⟨"g", [.ofInt 5]⟩ ∧
      ∃ calls, Session.Represented .redefine layeredEdits calls ∧ calls.length = 2 ∧
        calls.countP (·.name = "f") = 2 := by
  have defined : ∀ call value, .store call value ∈ layeredEdits → call.Numeric := by
    intro call value member
    simp only [layeredEdits, List.mem_cons, Session.Edit.store.injEq, reduceCtorEq,
      List.not_mem_nil, or_false, false_or] at member
    rcases member with ⟨rfl, -⟩ | ⟨rfl, -⟩ | ⟨rfl, -⟩ | ⟨rfl, -⟩ <;> decide +kernel
  obtain ⟨results, ⟨calls, represented⟩, sizes, -, -⟩ :=
    Session.results_follow_edits .redefine layeredEdits defined _ rfl
  refine ⟨defined, ?_, ?_, calls, represented, ?_, ?_⟩
  · exact ((results ⟨"f", [.zero false]⟩ (by decide)).2 (.zero false)).mp (by decide +kernel)
  · exact mt (results ⟨"g", [.ofInt 5]⟩ (by decide +kernel)).1.mpr (by decide +kernel)
  · rw [← (sizes calls represented).1]
    decide +kernel
  · rw [← (sizes calls represented).2 "f"]
    decide +kernel

end Calculator

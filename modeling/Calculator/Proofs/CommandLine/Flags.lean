import Calculator.CommandLine.Calculate
import Calculator.Proofs.CommandLine.Words

namespace Calculator.CommandLine.Calculate

/-- The event only chooses how statements are run. -/
def isFlag : Event Key → Bool
  | .operand _ => false
  | .option spec _ => spec.key ∈ [.noColor, .noDefaults, .cachePolicy, .recursionLimit]

namespace Settings

/-- Neither a file nor a statement is asked for, nor lines about progress. -/
structure Bare (settings : Settings) : Prop where
  input : settings.input = none
  statements : settings.statements = []
  quiet : settings.verbose = false

theorem bare_iff {settings : Settings} :
    settings.Bare ↔
      settings.input = none ∧ settings.statements = [] ∧ settings.verbose = false :=
  ⟨fun bare => ⟨bare.input, bare.statements, bare.quiet⟩,
    fun ⟨input, statements, quiet⟩ => ⟨input, statements, quiet⟩⟩

def requesting (settings : Settings) (input : Option String) (statements : List (Option String)) :
    Settings :=
  { settings with input := input, statements := statements }

section Requesting

variable (settings : Settings) (input : Option String) (statements : List (Option String))

@[simp] theorem requesting_input : (settings.requesting input statements).input = input :=
  rfl

@[simp] theorem requesting_statements :
    (settings.requesting input statements).statements = statements :=
  rfl

@[simp] theorem requesting_policy :
    (settings.requesting input statements).policy = settings.policy :=
  rfl

@[simp] theorem requesting_step (text : String) :
    (settings.requesting input statements).step text = settings.step text :=
  rfl

@[simp] theorem requesting_interpreter {σ : Type} (policy : CachePolicy)
    (draw : σ → Binary64 × σ) (hidden : σ) :
    (settings.requesting input statements).interpreter policy draw hidden =
      settings.interpreter policy draw hidden :=
  rfl

end Requesting

/-- Settings stay bare exactly as long as nothing but flags takes effect. -/
theorem bare_apply_iff {settings after : Settings} {event : Event Key} :
    settings.apply event = .ok after → (after.Bare ↔ settings.Bare ∧ isFlag event = true) := by
  fun_cases settings.apply event <;> rintro ⟨⟩ <;> simp_all [isFlag, bare_iff]

/-- What a flag does has nothing to do with the file and the statements. -/
theorem apply_requesting (settings : Settings) (input : Option String)
    (statements : List (Option String)) {event : Event Key} (flag : isFlag event = true) :
    (settings.requesting input statements).apply event =
      (settings.apply event).map (·.requesting input statements) := by
  fun_cases settings.apply event <;> simp_all [apply, isFlag, requesting, Except.map]

theorem foldlM_cons_eq_ok_iff {settings after : Settings} {event : Event Key}
    {rest : List (Event Key)} :
    (event :: rest).foldlM apply settings = .ok after ↔
      ∃ next, settings.apply event = .ok next ∧ rest.foldlM apply next = .ok after := by
  rw [List.foldlM_cons]
  rcases settings.apply event with stop | next
  · constructor
    · intro stopped
      cases stopped
    · rintro ⟨_, stopped, _⟩
      cases stopped
  · constructor
    · exact fun further => ⟨next, rfl, further⟩
    · rintro ⟨_, ⟨⟩, further⟩
      exact further

theorem foldlM_append_eq_ok_iff {settings after : Settings} {early late : List (Event Key)} :
    (early ++ late).foldlM apply settings = .ok after ↔
      ∃ next, early.foldlM apply settings = .ok next ∧ late.foldlM apply next = .ok after := by
  induction early generalizing settings with
  | nil => simp [pure, Except.pure]
  | cons event rest ih =>
    simp only [List.cons_append, foldlM_cons_eq_ok_iff, ih]
    constructor
    · rintro ⟨next, first, middle, second, third⟩
      exact ⟨middle, ⟨next, first, second⟩, third⟩
    · rintro ⟨middle, ⟨next, first, second⟩, third⟩
      exact ⟨next, first, middle, second, third⟩

theorem bare_foldlM_iff {settings after : Settings} {events : List (Event Key)}
    (applied : events.foldlM apply settings = .ok after) :
    after.Bare ↔ settings.Bare ∧ ∀ event ∈ events, isFlag event = true := by
  induction events generalizing settings with
  | nil =>
    cases applied
    simp
  | cons event rest ih =>
    obtain ⟨next, first, further⟩ := foldlM_cons_eq_ok_iff.mp applied
    rw [ih further, bare_apply_iff first, List.forall_mem_cons, and_assoc]

theorem foldlM_requesting {settings after : Settings} {events : List (Event Key)}
    (flags : ∀ event ∈ events, isFlag event = true)
    (applied : events.foldlM apply settings = .ok after) (input : Option String)
    (statements : List (Option String)) :
    events.foldlM apply (settings.requesting input statements) =
      .ok (after.requesting input statements) := by
  induction events generalizing settings with
  | nil =>
    cases applied
    rfl
  | cons event rest ih =>
    obtain ⟨flag, others⟩ := List.forall_mem_cons.mp flags
    obtain ⟨next, first, further⟩ := foldlM_cons_eq_ok_iff.mp applied
    refine foldlM_cons_eq_ok_iff.mpr ⟨next.requesting input statements, ?_, ih others further⟩
    rw [apply_requesting settings input statements flag, first]
    rfl

end Settings

/-- The words choose how statements are run and ask for nothing else. -/
structure Flags (words : List String) : Prop where
  unseparated : "--" ∉ words
  bare : ∃ chosen, settings words = .ok chosen ∧ chosen.Bare

theorem settings_of_read {argv : List String} {events : List (Event Key)}
    (reading : read options argv = { events := events }) :
    settings argv = events.foldlM Settings.apply {} := by
  simp only [settings, reading]
  rcases events.foldlM Settings.apply {} with stop | chosen <;> rfl

/-- Settings come from a reading without a problem and without untaken words. -/
theorem read_of_settings {argv : List String} {chosen : Settings}
    (given : settings argv = .ok chosen) :
    (read options argv).events.foldlM Settings.apply {} = .ok chosen ∧
      (read options argv).problem = none ∧ (read options argv).extras = [] := by
  simp only [settings] at given
  split at given
  · cases given
  · split at given
    · cases given
    · split at given
      · cases given
        simp_all
      · cases given

/-- Flags are options with their values, each of which only chooses how statements are run. -/
theorem Flags.asks {words : List String} (flags : Flags words) :
    ∃ events, Asks options words events ∧ ∀ event ∈ events, isFlag event = true := by
  obtain ⟨chosen, given, bare⟩ := flags.bare
  obtain ⟨applied, sound, taken⟩ := read_of_settings given
  obtain ⟨-, only⟩ := (Settings.bare_foldlM_iff applied).mp bare
  refine ⟨_, .of_plain flags.unseparated ⟨sound, taken, ?_⟩, only⟩
  intro text member
  cases only (.operand text) member

def evalWord (statement : String) : String :=
  "--eval=" ++ statement

def statementSpec : OptionSpec Key :=
  ⟨.statement, ["-e", "--eval"], true⟩

/-- What is asked for by a word for each statement. -/
def evalEvents (statements : List String) : List (Event Key) :=
  statements.map fun statement => .option statementSpec (attachedValue statement.toList)

theorem asks_evalWords (statements : List String) :
    Asks options (statements.map evalWord) (evalEvents statements) := by
  have names : ∀ entry ∈ nameTable options, '=' ∉ entry.1.toList := by decide
  induction statements with
  | nil => exact .nil
  | cons statement rest ih =>
    have long : "--eval".toList = '-' :: '-' :: "eval".toList := by decide
    have found : findOption? options "--eval" = some statementSpec := rfl
    exact (Asks.attached names long found rfl statement).append ih

theorem foldlM_evalEvents (settings : Settings) (statements : List String) :
    (evalEvents statements).foldlM Settings.apply settings =
      .ok { settings with
        statements := settings.statements ++
          statements.map fun statement => attachedValue statement.toList } := by
  induction statements generalizing settings with
  | nil => simp [evalEvents, pure, Except.pure]
  | cons statement rest ih =>
    refine Settings.foldlM_cons_eq_ok_iff.mpr ⟨_, rfl, (ih _).trans ?_⟩
    simp

section Around

variable {before behind : List String} (first : Flags before) (second : Flags behind)
  {chosen : Settings} (together : settings (before ++ behind) = .ok chosen)

include first second together

/-- The flags before take effect first, then those behind, and nothing else is asked for in
between. -/
private theorem exists_between :
    ∃ early late next, Asks options before early ∧ Asks options behind late ∧
      (∀ event ∈ late, isFlag event = true) ∧ early.foldlM Settings.apply {} = .ok next ∧
      late.foldlM Settings.apply next = .ok chosen ∧ next.Bare := by
  obtain ⟨early, asksEarly, earlyFlags⟩ := first.asks
  obtain ⟨late, asksLate, lateFlags⟩ := second.asks
  rw [settings_of_read (asksEarly.append asksLate).read_eq] at together
  obtain ⟨next, begun, ended⟩ := Settings.foldlM_append_eq_ok_iff.mp together
  have bare : next.Bare := (Settings.bare_foldlM_iff begun).mpr ⟨⟨rfl, rfl, rfl⟩, earlyFlags⟩
  exact ⟨early, late, next, asksEarly, asksLate, lateFlags, begun, ended, bare⟩

theorem bare_of_flags : chosen.Bare := by
  obtain ⟨-, late, next, -, -, flags, -, ended, bare⟩ := exists_between first second together
  exact (Settings.bare_foldlM_iff ended).mpr ⟨bare, flags⟩

/-- What stands between flags is asked for together with what the flags choose. -/
private theorem settings_between {middle : List String} {asked : List (Event Key)}
    {input : Option String} {statements : List (Option String)}
    (reading : ∀ early late, Asks options before early → Asks options behind late →
      read options (before ++ middle ++ behind) = { events := early ++ (asked ++ late) })
    (request : ∀ settings : Settings, settings.Bare →
      asked.foldlM Settings.apply settings = .ok (settings.requesting input statements)) :
    settings (before ++ middle ++ behind) = .ok (chosen.requesting input statements) := by
  obtain ⟨early, late, next, asksEarly, asksLate, flags, begun, ended, bare⟩ :=
    exists_between first second together
  rw [settings_of_read (reading early late asksEarly asksLate)]
  refine Settings.foldlM_append_eq_ok_iff.mpr ⟨next, begun, ?_⟩
  exact Settings.foldlM_append_eq_ok_iff.mpr
    ⟨_, request next bare, Settings.foldlM_requesting flags ended input statements⟩

theorem settings_file {path : String} (operand : classify options path = .ok (.operand path)) :
    settings (before ++ path :: behind) = .ok (chosen.requesting (some path) []) := by
  have different : path ≠ "--" := by
    rintro rfl
    cases operand
  have split : before ++ path :: behind = before ++ [path] ++ behind := by simp
  have reading : ∀ early late, Asks options before early → Asks options behind late →
      read options (before ++ [path] ++ behind) =
        { events := early ++ ([.operand path] ++ late) } := by
    intro early late asksEarly asksLate
    rw [← split]
    exact asksEarly.read_operand asksLate operand different
  rw [split]
  apply settings_between first second together reading
  intro settings bare
  refine Settings.foldlM_cons_eq_ok_iff.mpr ⟨_, rfl, ?_⟩
  simp [Settings.requesting, bare.statements, pure, Except.pure]

theorem settings_evalWords (statements : List String) :
    settings (before ++ statements.map evalWord ++ behind) =
      .ok (chosen.requesting none
        (statements.map fun statement => attachedValue statement.toList)) := by
  have reading : ∀ early late, Asks options before early → Asks options behind late →
      read options (before ++ statements.map evalWord ++ behind) =
        { events := early ++ (evalEvents statements ++ late) } := by
    intro early late asksEarly asksLate
    rw [List.append_assoc]
    exact (asksEarly.append ((asks_evalWords statements).append asksLate)).read_eq
  apply settings_between first second together reading
  intro settings bare
  simp [foldlM_evalEvents, Settings.requesting, bare.input, bare.statements]

end Around

end Calculator.CommandLine.Calculate

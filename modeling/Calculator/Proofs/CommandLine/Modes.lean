import Calculator.Proofs.CommandLine.Flags
import Calculator.Proofs.Decimal.Layout
import Calculator.Proofs.Evaluation.Errors
import Calculator.Proofs.Shell.Loop

/-! Three ways to run statements. Given in a file, one on each line that is not blank, or on the
command line, one in each word, statements have the same output, which ends at the first failure; a
shell answers them in the same words as far as that, and goes on. The one word that does not bring
its statement along is that of two minus signs, which is taken for a separator. -/

namespace Calculator

variable {σ : Type}

theorem Binary64.text_ne_empty (x : Binary64) : x.text ≠ "<empty>" := by
  intro same
  have chars : x.chars = "<empty>".toList := by rw [← same, Binary64.text, String.toList_ofList]
  have head := x.head_chars '<' (by rw [chars]; rfl)
  revert head
  decide

theorem Interpreter.display_ne_empty {interpreter : Interpreter σ} {text : String}
    {answer : Answer} (visible : Text.allBlank text = false)
    (answered : (interpreter.feed text).1 = .ok answer) : answer.display ≠ "<empty>" := by
  rcases interpreter.feed_cases text with ⟨failure, fed⟩ | ⟨frames, statement, -, read, fed⟩
  · rw [fed] at answered
    cases answered
  · have something : statement ≠ none := by
      rintro rfl
      rw [(Statement.read_eq_none_iff frames text).mp read] at visible
      cases visible
    have performed := Statement.perform_performed interpreter.builtins frames statement
      interpreter.counted.machine
    simp only [fed] at answered
    generalize Statement.perform _ _ statement _ = outcome at performed answered
    cases performed with
    | failed failure => cases answered
    | nothing => exact absurd rfl something
    | computed expr result =>
      cases answered
      exact result.text_ne_empty
    | constant name expr pos result =>
      cases answered
      intro same
      have chars := congrArg String.toList same
      simp [Answer.constantSet, Answer.display] at chars
    | clause name params body pos pattern =>
      cases answered
      intro same
      have chars := congrArg String.toList same
      simp [Answer.clauseAdded, Answer.display] at chars

namespace CommandLine

@[simp] theorem Output.after_empty (output : Output) : output.after "" = output := by
  simp [Output.after]

namespace Calculate

/-- The lines of a text that are not blank. -/
def statementLines (text : String) : List String :=
  (Text.lines text).filter fun line => !Text.allBlank line

def answerLine (answer : Answer) : String :=
  answer.display ++ "\n"

def listing (answers : List Answer) : String :=
  String.join (answers.map answerLine)

/-- The statements that are run: all up to the first that fails, which is the last. -/
def attempted (interpreter : Interpreter σ) : List String → List String
  | [] => []
  | text :: rest =>
    match interpreter.feed text with
    | (.ok _, next) => text :: attempted next rest
    | (.error _, _) => [text]

namespace Settings

/-- Run statements on a new interpreter, unless the policy was left out. -/
def runAfresh (settings : Settings) (terminal : Terminal) (draw : σ → Binary64 × σ) (hidden : σ)
    (statements : List (Option String)) : Output :=
  match settings.policy with
  | none => .crash .policyLeftOut
  | some policy => settings.runAll terminal (settings.interpreter policy draw hidden) statements

theorem runAll_requesting (settings : Settings) (terminal : Terminal) (input : Option String)
    (requested : List (Option String)) (interpreter : Interpreter σ)
    (statements : List (Option String)) :
    (settings.requesting input requested).runAll terminal interpreter statements =
      settings.runAll terminal interpreter statements := by
  induction statements generalizing interpreter with
  | nil => rfl
  | cons statement rest ih =>
    cases statement with
    | none => rfl
    | some text =>
      simp only [runAll, ih]
      rfl

/-- A statement that is attached to its word is run like any other, unless it is two minus signs;
what stands behind the first failure is not looked at. -/
theorem runAll_attached (settings : Settings) (terminal : Terminal) {interpreter : Interpreter σ}
    {statements : List String} (given : "--" ∉ attempted interpreter statements) :
    settings.runAll terminal interpreter (statements.map fun text => attachedValue text.toList) =
      settings.runAll terminal interpreter (statements.map some) := by
  induction statements generalizing interpreter with
  | nil => rfl
  | cons text rest ih =>
    rcases fed : interpreter.feed text with ⟨failure | answer, next⟩ <;>
      simp only [attempted, fed] at given
    · have value := attachedValue_eq_some (List.ne_of_not_mem_cons given).symm
      simp only [List.map_cons, value, runAll, fed]
      cases failure <;> rfl
    · obtain ⟨different, others⟩ := List.ne_and_not_mem_of_not_mem_cons given
      simp only [List.map_cons, attachedValue_eq_some different.symm, runAll, fed, ih others]

theorem interpreter_sane (settings : Settings) {frames : Nat}
    (settable : settings.limit.budget = .ok frames) (policy : CachePolicy)
    (draw : σ → Binary64 × σ) (hidden : σ) :
    (settings.interpreter policy draw hidden).Sane 0 := by
  unfold interpreter
  split
  · refine ⟨Standard.builtins_faultless draw, ⟨frames, settable⟩, ?_, rfl⟩
    intro name clause member
    cases member
  · refine ⟨?_, ⟨frames, settable⟩, ?_, rfl⟩
    · intro name builtin member
      cases member
    · intro name clause member
      cases member

section Course

variable {settings : Settings} (quiet : settings.verbose = false) {terminal : Terminal}
  {interpreter : Interpreter σ}

include quiet

theorem runAll_of_answer {text : String} {answer : Answer} {next : Interpreter σ}
    (fed : interpreter.feed text = (.ok answer, next)) (rest : List (Option String)) :
    settings.runAll terminal interpreter (some text :: rest) =
      (settings.runAll terminal next rest).after (answerLine answer) := by
  simp [runAll, fed, statementStep, step, quiet, answerLine]

theorem runAll_of_failure {text : String} {index : Nat} {cause : Cause} {next : Interpreter σ}
    (fed : interpreter.feed text = (.error (.rejected index cause), next))
    (rest : List (Option String)) :
    settings.runAll terminal interpreter (some text :: rest) =
      { err := settings.errorLine terminal (StatementFailure.rejected index cause).message
        ending := .returned 1 } := by
  simp [runAll, fed, statementStep, step, quiet]

/-- The output of statements is told by the outcomes that they have when all of them are fed: either
all are answers, or the first failure has the number of its statement, and what stands behind it
does not matter. -/
theorem runAll_course {fed : Nat} (sane : interpreter.Sane fed) (statements : List String) :
    (∃ answers, (interpreter.feedAll statements).1 = answers.map .ok ∧
      settings.runAll terminal interpreter (statements.map some) = { out := listing answers }) ∨
    ∃ answers cause later,
      (interpreter.feedAll statements).1 =
        answers.map .ok ++ .error (.rejected (fed + answers.length + 1) cause) :: later ∧
      ∀ others, settings.runAll terminal interpreter
          ((statements.take (answers.length + 1) ++ others).map some) =
        { out := listing answers
          err := settings.errorLine terminal
            (StatementFailure.rejected (fed + answers.length + 1) cause).message
          ending := .returned 1 } := by
  induction statements generalizing interpreter fed with
  | nil => exact .inl ⟨[], rfl, rfl⟩
  | cons text rest ih =>
    rcases outcome : interpreter.feed text with ⟨failure | answer, next⟩
    · obtain ⟨cause, rfl, -⟩ := sane.feed_documented (congrArg Prod.fst outcome)
      refine .inr ⟨[], cause, (next.feedAll rest).1, ?_, fun others => ?_⟩
      · simp [Interpreter.feedAll, outcome]
      · exact runAll_of_failure quiet outcome _
    · have further : next.Sane (fed + 1) := by
        have kept := sane.feed text
        rwa [outcome] at kept
      rcases ih further with ⟨answers, outcomes, output⟩ | ⟨answers, cause, later, outcomes, output⟩
      · refine .inl ⟨answer :: answers, ?_, ?_⟩
        · simp [Interpreter.feedAll, outcome, outcomes]
        · rw [List.map_cons, runAll_of_answer quiet outcome, output]
          simp [Output.after, listing]
      · have number : fed + 1 + answers.length + 1 = fed + (answer :: answers).length + 1 := by
          simp only [List.length_cons]
          omega
        rw [number] at outcomes output
        refine .inr ⟨answer :: answers, cause, later, ?_, fun others => ?_⟩
        · simp [Interpreter.feedAll, outcome, outcomes]
        · rw [List.length_cons, List.take_succ_cons, List.cons_append, List.map_cons,
            runAll_of_answer quiet outcome, output others]
          simp [Output.after, listing]

end Course

variable {chosen : Settings} (bare : chosen.Bare) (terminal : Terminal)
  (draw : σ → Binary64 × σ) (hidden : σ)
  (files : String → SourceFile) (input : String)

include bare

theorem step_eq_empty (text : String) : chosen.step text = "" := by
  simp [step, bare.quiet]

theorem run_file {path text : String} (readable : (files path).text = .ok text) :
    (chosen.requesting (some path) []).run terminal draw hidden files input =
      chosen.runAfresh terminal draw hidden ((statementLines text).map some) := by
  cases given : chosen.policy with
  | none => simp [run, runAfresh, given]
  | some policy =>
    simp [run, runAfresh, given, runFile, readable, started, step_eq_empty bare,
      runAll_requesting, statementLines]

theorem run_statements {statements : List (Option String)} (present : statements ≠ []) :
    (chosen.requesting none statements).run terminal draw hidden files input =
      chosen.runAfresh terminal draw hidden statements := by
  cases given : chosen.policy with
  | none => simp [run, runAfresh, given]
  | some policy =>
    simp [run, runAfresh, given, present, started, step_eq_empty bare, runAll_requesting]

end Settings

theorem visible_of_mem_statementLines {text line : String} (member : line ∈ statementLines text) :
    Text.allBlank line = false := by
  simpa using (List.mem_filter.mp member).2

theorem displays_ne_empty {statements : List String}
    (visible : ∀ text ∈ statements, Text.allBlank text = false) {interpreter : Interpreter σ}
    {answer : Answer} (answered : .ok answer ∈ (interpreter.feedAll statements).1) :
    answer.display ≠ "<empty>" := by
  induction statements generalizing interpreter with
  | nil => cases answered
  | cons text rest ih =>
    obtain ⟨first, others⟩ := List.forall_mem_cons.mp visible
    rcases List.mem_cons.mp answered with now | later
    · exact Interpreter.display_ne_empty first now.symm
    · exact ih others later

/-- How statements come to their end when they are run one after the other. Either all have answers,
or the first failure ends them; the output tells the answers before it, and the failure with the
number of its statement. A shell that is given the same statements, if none is a command, writes the
same up to there. -/
inductive Concluded (settings : Settings) (terminal : Terminal) (fresh : Interpreter σ)
    (statements : List String) (output : Output) : Prop where
  | finished (answers : List Answer)
      (outcomes : (fresh.feedAll statements).1 = answers.map .ok)
      (written : output = { out := listing answers, err := "", ending := .returned 0 })
      (shown : (∀ statement ∈ statements, Command.ofLine statement = .statement) →
        Shell.outputs ⟨fresh, false, terminal⟩ statements = answers.map answerLine) :
    Concluded settings terminal fresh statements output
  | stopped (answers : List Answer) (cause : Cause)
      (later : List (Except StatementFailure Answer))
      (outcomes : (fresh.feedAll statements).1 =
        answers.map .ok ++ .error (.rejected (answers.length + 1) cause) :: later)
      (written : output =
        { out := listing answers
          err := settings.errorLine terminal
            ("(Statement " ++ Nat.repr (answers.length + 1) ++ ") " ++ cause.message)
          ending := .returned 1 })
      -- whatever stands behind the failing statement, nothing of it is seen in the output
      (unread : ∀ others, settings.runAll terminal fresh
        ((statements.take (answers.length + 1) ++ others).map some) = output)
      (shown : (∀ statement ∈ statements, Command.ofLine statement = .statement) →
        ∃ more, Shell.outputs ⟨fresh, false, terminal⟩ statements = answers.map answerLine ++
          ("(Statement " ++ Nat.repr (answers.length + 1) ++ ") " ++ cause.message ++ "\n") ::
            more) :
    Concluded settings terminal fresh statements output

/-- Lines that are no commands are answered by an uncoloured shell with their outcomes. -/
theorem outputs_of_plain (terminal : Terminal) (fresh : Interpreter σ) {statements : List String}
    (plain : ∀ statement ∈ statements, Command.ofLine statement = .statement) :
    Shell.outputs ⟨fresh, false, terminal⟩ statements =
      (fresh.feedAll statements).1.map fun outcome =>
        Shell.report terminal false outcome ++ "\n" := by
  rw [Shell.outputs_eq_answers _ plain, Shell.answers_eq]

theorem runAll_concluded {settings : Settings} (quiet : settings.verbose = false)
    (terminal : Terminal) {fresh : Interpreter σ} (sane : fresh.Sane 0)
    (statements : List String) :
    Concluded settings terminal fresh statements
      (settings.runAll terminal fresh (statements.map some)) := by
  rcases Settings.runAll_course quiet sane statements with
    ⟨answers, outcomes, output⟩ | ⟨answers, cause, later, outcomes, output⟩
  · refine .finished answers outcomes output fun plain => ?_
    rw [outputs_of_plain terminal fresh plain, outcomes, List.map_map]
    rfl
  · rw [Nat.zero_add] at outcomes output
    have whole := output (statements.drop (answers.length + 1))
    rw [List.take_append_drop] at whole
    refine .stopped answers cause later outcomes whole ?_ fun plain => ?_
    · exact fun others => (output others).trans whole.symm
    · refine ⟨later.map fun outcome => Shell.report terminal false outcome ++ "\n", ?_⟩
      rw [outputs_of_plain terminal fresh plain, outcomes, List.map_append, List.map_map]
      rfl

/-- The ways of running statements agree. Between the same flags, none of which asks for lines about
progress, a file with a line that is not blank has the same output as a word for each such line,
unless two minus signs are one of the statements that are run. None of these lines is read like a
blank one. With a policy and a limit under which statements can run, statements are run up to the
first failure, and no answer looks like that to a blank line. -/
theorem modes_agree {before behind : List String} (first : Flags before) (second : Flags behind)
    {chosen : Settings} (together : settings (before ++ behind) = .ok chosen) {path : String}
    (operand : classify options path = .ok (.operand path)) (files : String → SourceFile)
    {text : String} (readable : (files path).text = .ok text)
    (present : statementLines text ≠ []) (draw : σ → Binary64 × σ) (hidden : σ)
    (input : String) (terminal : Terminal) :
    let statements := statementLines text
    let fromFile := run draw hidden (before ++ path :: behind) files input terminal
    let fromWords :=
      run draw hidden (before ++ statements.map evalWord ++ behind) files input terminal
    ((∀ policy, chosen.policy = some policy →
        "--" ∉ attempted (chosen.interpreter policy draw hidden) statements) →
      fromWords = fromFile) ∧
    (∀ frames, ∀ statement ∈ statements, Statement.read frames statement ≠ .ok none) ∧
    ∀ policy frames, chosen.policy = some policy → chosen.limit.budget = .ok frames →
      let fresh := chosen.interpreter policy draw hidden
      Concluded chosen terminal fresh statements fromFile ∧
        ∀ answer, .ok answer ∈ (fresh.feedAll statements).1 → answer.display ≠ "<empty>" := by
  intro statements fromFile fromWords
  have bare := bare_of_flags first second together
  have ofFile : fromFile = chosen.runAfresh terminal draw hidden (statements.map some) := by
    simp only [fromFile, run, settings_file first second together operand]
    exact Settings.run_file bare terminal draw hidden files input readable
  have ofWords : fromWords = chosen.runAfresh terminal draw hidden
      (statements.map fun text => attachedValue text.toList) := by
    simp only [fromWords, run, settings_evalWords first second together]
    exact Settings.run_statements bare terminal draw hidden files input (by simpa using present)
  have visible : ∀ statement ∈ statements, Text.allBlank statement = false :=
    fun statement member => visible_of_mem_statementLines member
  refine ⟨?_, ?_, ?_⟩
  · intro given
    rw [ofFile, ofWords, Settings.runAfresh, Settings.runAfresh]
    cases chosenPolicy : chosen.policy with
    | none => rfl
    | some policy => exact chosen.runAll_attached terminal (given policy chosenPolicy)
  · intro frames statement member read
    rw [Statement.read_eq_none_iff, visible statement member] at read
    cases read
  · intro policy frames given settable fresh
    simp only [Settings.runAfresh, given] at ofFile
    rw [ofFile]
    have sane := chosen.interpreter_sane settable policy draw hidden
    exact ⟨runAll_concluded bare.quiet terminal sane statements,
      fun answer => displays_ne_empty visible⟩

def noChance (state : Unit) : Binary64 × Unit :=
  (.zero false, state)

/-- Three statements between several kinds of line ends, the last of which fails, and two minus
signs behind them. -/
def mixedText : String :=
  "let f(0) = 1\n\n  f(0) + 1\u2028 \ng(2)\n--"

/-- The third statement fails both in the file and among the words, and the two minus signs behind
it are seen in neither. -/
theorem mixed_text_stops :
    let chosen : Settings := { color := false, policy := some .redefine }
    let files := fun _ => SourceFile.bytes mixedText.toUTF8
    let fromFile :=
      run noChance () ["--no-color", "mixed.calc", "--cache-policy", "redefine"] files ""
    let fromWords := run noChance () (["--no-color"] ++ (statementLines mixedText).map evalWord ++
      ["--cache-policy", "redefine"]) files ""
    fromWords = fromFile ∧
      Concluded chosen .standard (chosen.interpreter .redefine noChance ())
        (statementLines mixedText) fromFile ∧
      fromFile =
        { out := "<func f(0) = ...>\n2\n"
          err := "[calc:error] (Statement 3) undefined function g\n"
          ending := .returned 1 } := by
  intro chosen files fromFile fromWords
  have first : Flags ["--no-color"] := ⟨by decide, _, rfl, ⟨rfl, rfl, rfl⟩⟩
  have second : Flags ["--cache-policy", "redefine"] := ⟨by decide, _, rfl, ⟨rfl, rfl, rfl⟩⟩
  have together : settings (["--no-color"] ++ ["--cache-policy", "redefine"]) = .ok chosen := rfl
  have operand : classify options "mixed.calc" = .ok (.operand "mixed.calc") := rfl
  have readable : (files "mixed.calc").text = .ok mixedText := by decide +kernel
  obtain ⟨agree, -, course⟩ := modes_agree first second together operand files readable
    (by decide +kernel) noChance () "" .standard
  refine ⟨agree ?_, (course .redefine 10000 rfl rfl).1, by decide +kernel⟩
  rintro policy ⟨⟩
  decide +kernel

/-- Neither half holds without its conditions. Two minus signs are a statement without an operand in
a file, and no statement in a word; and under a limit that cannot be set the command does not end by
itself. -/
theorem no_unconditional_agreement :
    (¬∀ (flags : List String) (path text : String) (files : String → SourceFile), Flags flags →
      classify options path = .ok (.operand path) → (files path).text = .ok text →
      statementLines text ≠ [] →
      run noChance () (flags ++ (statementLines text).map evalWord) files "" =
        run noChance () (flags ++ [path]) files "") ∧
    ¬∀ (flags : List String) (path text : String) (files : String → SourceFile), Flags flags →
      classify options path = .ok (.operand path) → (files path).text = .ok text →
      statementLines text ≠ [] →
      ∃ code, (run noChance () (flags ++ [path]) files "").ending = .returned code := by
  constructor
  · intro agree
    have same := agree ["--no-color"] "minus.calc" "--\n" (fun _ => .bytes "--\n".toUTF8)
      ⟨by decide, _, rfl, ⟨rfl, rfl, rfl⟩⟩ rfl (by decide +kernel) (by decide +kernel)
    revert same
    decide +kernel
  · intro ends
    obtain ⟨code, returned⟩ := ends ["--recursion-limit=2147483648"] "one.calc" "1\n"
      (fun _ => .bytes "1\n".toUTF8) ⟨by decide, _, rfl, ⟨rfl, rfl, rfl⟩⟩ rfl
      (by decide +kernel) (by decide +kernel)
    have crashed : (run noChance () (["--recursion-limit=2147483648"] ++ ["one.calc"])
        (fun _ => .bytes "1\n".toUTF8) "").ending = .crashed (.internal .limitTooLarge) := by
      decide +kernel
    rw [crashed] at returned
    cases returned

end Calculate

end CommandLine

end Calculator

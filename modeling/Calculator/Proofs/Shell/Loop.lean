import Calculator.CommandLine.Calculate
import Calculator.Proofs.Evaluation.Limit
import Calculator.Proofs.Text.Lines

/-!
The shell read as a fold. The lines before the first one that asks to leave are served; of these,
the ones that are no command are fed to the interpreter, in order and each once. The output is a
list of passages, and a choice of colours decides only how each passage is shown.
-/

namespace Calculator

variable {σ : Type}

namespace Command

/-- The longest beginning of a text that could be a name. -/
def leadingName (text : String) : String :=
  String.ofList (text.toList.takeWhile Token.isWordChar)

def ofName : String → Command
  | "help" => .help
  | "exit" => .exit
  | "EOF" => .endOfInput
  | _ => .statement

/-- What a line asks for when the text before its first space decides whether it is a command, and
the name it begins with decides which one. -/
def dispatched (line : String) : Command :=
  if firstWord (Text.trim line) ∈ words then ofName (leadingName (Text.trim line)) else .statement

theorem isWordChar_of_mem_words {word : String} (command : word ∈ words) :
    ∀ c ∈ word.toList, Token.isWordChar c = true := by
  have known : (words.all fun word => word.toList.all Token.isWordChar) = true := by decide
  exact List.all_eq_true.mp (List.all_eq_true.mp known word command)

/-- A command ends at a space or with the text, so it is the whole name that the text begins
with. -/
theorem leadingName_eq_firstWord {text : String} (command : firstWord text ∈ words) :
    leadingName text = firstWord text := by
  have inside : ∀ c ∈ text.toList.takeWhile (· ≠ ' '), Token.isWordChar c = true := by
    simpa [firstWord] using isWordChar_of_mem_words command
  have outside : ∀ c ∈ (text.toList.dropWhile (· ≠ ' ')).head?, Token.isWordChar c = false := by
    intro c first
    have stopped := List.head?_dropWhile_not (· ≠ ' ') text.toList
    rw [Option.mem_def.mp first] at stopped
    obtain rfl : c = ' ' := by simpa using stopped
    decide
  have taken := (Token.span_append inside outside).1
  rw [List.takeWhile_append_dropWhile] at taken
  rw [leadingName, taken, firstWord]

theorem dispatched_eq_ofLine (line : String) : dispatched line = ofLine line := by
  unfold dispatched ofLine
  by_cases command : firstWord (Text.trim line) ∈ words
  · rw [if_pos command, leadingName_eq_firstWord command]
    rcases List.mem_cons.mp command with same | command
    · simp [same, ofName]
    rcases List.mem_cons.mp command with same | command
    · simp [same, ofName]
    · simp [List.mem_singleton.mp command, ofName]
  · have none : firstWord (Text.trim line) ≠ "EOF" ∧ firstWord (Text.trim line) ≠ "exit" ∧
        firstWord (Text.trim line) ≠ "help" := by
      simpa [words] using command
    simp [command, none]

end Command

/-- A stretch of output, with its colour if it has one. -/
structure Passage where
  text : String
  ink : Option Ink := none
deriving DecidableEq

namespace Passage

/-- A passage as it is shown with or without colours. -/
def shown (terminal : Terminal) (color : Bool) : Passage → String
  | ⟨text, none⟩ => text
  | ⟨text, some ink⟩ => if color then terminal.paint ink text else text

/-- What is shown of the outcome of a statement. -/
def ofOutcome : Except StatementFailure Answer → Passage
  | .ok (.number value) => ⟨value.text, some .yellow⟩
  | .ok (.note text) => ⟨text, some .brightBlue⟩
  | .error (.rejected index cause) =>
    ⟨"(Statement " ++ Nat.repr index ++ ") " ++ cause.message, some .red⟩
  | .error (.internal defect) =>
    ⟨"[internal] " ++ defect.kind ++ ": " ++ defect.message, some .red⟩

theorem report_eq_shown (terminal : Terminal) (color : Bool)
    (outcome : Except StatementFailure Answer) :
    Shell.report terminal color outcome = (ofOutcome outcome).shown terminal color := by
  rcases outcome with (⟨index, cause⟩ | defect) | (value | text) <;> rfl

/-- Without colours a passage is its text; with colours a passage that has one is wrapped in a
single pair of sequences, and any other passage is its text again. -/
theorem shown_cases (terminal : Terminal) (passage : Passage) :
    passage.shown terminal false = passage.text ∧
      ((passage.ink = none ∧ passage.shown terminal true = passage.text) ∨
        ∃ ink, passage.ink = some ink ∧
          passage.shown terminal true =
            terminal.opening ink ++ passage.text ++ terminal.closing) := by
  rcases passage with ⟨text, none | ink⟩
  · exact ⟨rfl, .inl ⟨rfl, rfl⟩⟩
  · exact ⟨rfl, .inr ⟨ink, rfl, rfl⟩⟩

end Passage

namespace Shell

open CommandLine.Calculate (Settings)

def shown (shell : Shell σ) : Passage → String :=
  Passage.shown shell.terminal shell.color

/-- The text of a line up to its first space, once the blanks around the line are gone. -/
def request (line : String) : String :=
  Command.firstWord (Text.trim line)

/-- The lines before the first one that asks to leave. -/
def served (lines : List String) : List String :=
  lines.takeWhile fun line => request line ∉ ["exit", "EOF"]

def statements (lines : List String) : List String :=
  lines.filter fun line => request line ∉ ["help", "exit", "EOF"]

/-- What answers a line that does not ask to leave. -/
def reply (interpreter : Interpreter σ) (line : String) : Passage :=
  if request line = "help" then ⟨helpText, none⟩ else .ofOutcome (interpreter.feed line).1

/-- What answers the request to leave: a line feed, unless leaving was asked for by name. -/
def farewell : List String → List Passage
  | [] => [⟨"\n", none⟩]
  | line :: _ => if request line = "exit" then [] else [⟨"\n", none⟩]

/-- What is shown after the greeting: a prompt, the reply and a line feed for every line that is
served, then a prompt and the farewell. A line is answered by an interpreter that was fed the
statements before it. -/
def dialogue (interpreter : Interpreter σ) (lines : List String) : List Passage :=
  ((served lines).mapIdx fun i line =>
      [⟨prompt, none⟩,
        reply (interpreter.feedAll (statements ((served lines).take i))).2 line,
        ⟨"\n", none⟩]).flatten ++
    ⟨prompt, none⟩ :: farewell (lines.drop (served lines).length)

def transcript (interpreter : Interpreter σ) (lines : List String) : List Passage :=
  ⟨greeting ++ "\n", none⟩ :: dialogue interpreter lines

theorem ofLine_eq (line : String) :
    Command.ofLine line =
      if request line = "help" then .help
      else if request line = "exit" then .exit
      else if request line = "EOF" then .endOfInput
      else .statement :=
  rfl

/-- The interpreter after a line that does not ask to leave. -/
def afterLine (interpreter : Interpreter σ) (line : String) : Interpreter σ :=
  if request line = "help" then interpreter else (interpreter.feed line).2

section Leaving

variable {line : String} (leaving : request line ∈ ["exit", "EOF"]) (rest : List String)

include leaving

theorem served_of_leaving : served (line :: rest) = [] := by
  have refused : ¬decide (request line ∉ ["exit", "EOF"]) = true := by
    rw [decide_eq_true_iff]
    exact not_not_intro leaving
  rw [served, List.takeWhile_cons, if_neg refused]

theorem dialogue_of_leaving (interpreter : Interpreter σ) :
    dialogue interpreter (line :: rest) = ⟨prompt, none⟩ :: farewell (line :: rest) := by
  simp [dialogue, served_of_leaving leaving rest]

/-- A line that asks to leave is answered by the farewell, and no line after it is read. -/
theorem runLines_of_leaving (shell : Shell σ) :
    shell.runLines (line :: rest) =
      (prompt ++ String.join ((farewell (line :: rest)).map shell.shown), rest, shell) := by
  rcases List.mem_pair.mp leaving with exit | last
  · have command : Command.ofLine line = .exit := by simp [ofLine_eq, exit]
    simp [runLines, runLine, command, farewell, exit]
  · have command : Command.ofLine line = .endOfInput := by simp [ofLine_eq, last]
    simp [runLines, runLine, command, farewell, last, shown, Passage.shown]

end Leaving

section Staying

variable {line : String} (staying : request line ∉ ["exit", "EOF"]) (rest : List String)

include staying

theorem served_of_staying : served (line :: rest) = line :: served rest := by
  rw [served, List.takeWhile_cons, if_pos (decide_eq_true staying), served]

theorem feedAll_statements_cons (interpreter : Interpreter σ) :
    (interpreter.feedAll (statements (line :: rest))).2 =
      ((afterLine interpreter line).feedAll (statements rest)).2 := by
  have others : request line ≠ "exit" ∧ request line ≠ "EOF" := by simpa using staying
  by_cases help : request line = "help"
  · simp [statements, afterLine, help]
  · simp [statements, afterLine, help, others, Interpreter.feedAll]

theorem dialogue_of_staying (interpreter : Interpreter σ) :
    dialogue interpreter (line :: rest) =
      ⟨prompt, none⟩ :: reply interpreter line :: ⟨"\n", none⟩ ::
        dialogue (afterLine interpreter line) rest := by
  simp only [dialogue, served_of_staying staying rest, List.mapIdx_cons, List.take_succ_cons,
    feedAll_statements_cons staying]
  rfl

/-- A line that does not ask to leave is answered by its reply, and the rest is run on the
interpreter after it. -/
theorem runLines_of_staying (shell : Shell σ) :
    shell.runLines (line :: rest) =
      let further := runLines { shell with interpreter := afterLine shell.interpreter line } rest
      (prompt ++ (shell.shown (reply shell.interpreter line) ++ "\n") ++ further.1,
        further.2) := by
  have others : request line ≠ "exit" ∧ request line ≠ "EOF" := by simpa using staying
  by_cases help : request line = "help"
  · have command : Command.ofLine line = .help := by simp [ofLine_eq, help]
    simp [runLines, runLine, command, afterLine, reply, help, shown, Passage.shown]
  · have command : Command.ofLine line = .statement := by simp [ofLine_eq, help, others]
    simp [runLines, runLine, runStatement, command, afterLine, reply, help, shown,
      Passage.report_eq_shown]

end Staying

/-- The lines are run as the dialogue says, and the interpreter is fed the statements that are
served. -/
theorem runLines_eq (shell : Shell σ) (lines : List String) :
    shell.runLines lines =
      (String.join ((dialogue shell.interpreter lines).map shell.shown),
        lines.drop ((served lines).length + 1),
        { shell with
          interpreter := (shell.interpreter.feedAll (statements (served lines))).2 }) := by
  induction lines generalizing shell with
  | nil => rfl
  | cons line rest ih =>
    by_cases leaving : request line ∈ ["exit", "EOF"]
    · rw [runLines_of_leaving leaving, dialogue_of_leaving leaving, served_of_leaving leaving]
      simp [shown, Passage.shown, statements, Interpreter.feedAll]
    · rw [runLines_of_staying leaving, dialogue_of_staying leaving, served_of_staying leaving,
        feedAll_statements_cons leaving, ih]
      simp [shown, Passage.shown, String.append_assoc]

/-- The answers to lines that are taken for statements one after the other. -/
def answers (shell : Shell σ) : List String → List String
  | [] => []
  | line :: rest =>
    let answered := shell.runStatement line
    answered.1 :: answered.2.answers rest

theorem answers_eq (shell : Shell σ) (lines : List String) :
    shell.answers lines =
      (shell.interpreter.feedAll lines).1.map fun outcome =>
        report shell.terminal shell.color outcome ++ "\n" := by
  induction lines generalizing shell with
  | nil => rfl
  | cons line rest ih =>
    simp only [answers, runStatement, Interpreter.feedAll, List.map_cons, ih]

/-- What is written for lines that are run one after the other, commands or not. -/
def outputs (shell : Shell σ) : List String → List String
  | [] => []
  | line :: rest =>
    let ran := shell.runLine line
    ran.2.1 :: ran.2.2.outputs rest

theorem outputs_eq_answers (shell : Shell σ) {lines : List String}
    (plain : ∀ line ∈ lines, Command.ofLine line = .statement) :
    shell.outputs lines = shell.answers lines := by
  induction lines generalizing shell with
  | nil => rfl
  | cons line rest ih =>
    obtain ⟨statement, others⟩ := List.forall_mem_cons.mp plain
    simp only [outputs, answers, runLine, statement, ih _ others]

/-- Without the blanks around it, the line reads as the word up to its first space. -/
def Asks (line word : String) : Prop :=
  ∃ short, Text.Bared line short ∧ word.toList = short.toList.takeWhile (· ≠ ' ')

theorem request_eq_iff {line word : String} : request line = word ↔ Asks line word := by
  constructor
  · rintro rfl
    exact ⟨Text.trim line, Text.trim_eq_iff.mp rfl, String.toList_ofList ..⟩
  · rintro ⟨short, bared, first⟩
    rw [request, Text.trim_eq_iff.mpr bared, Command.firstWord, ← first, String.ofList_toList]

/-- The lines of a text that is piped into a shell: those that end by line feeds, each without the
carriage returns at its end. -/
def Piped (text : String) (lines : List String) : Prop :=
  ∃ typed, Text.InLines text typed ∧
    List.Forall₂ (Text.Shortened fun c => c == '\r' || c == '\n') typed lines

theorem pipedLines_eq_iff {text : String} {lines : List String} :
    pipedLines text = lines ↔ Piped text lines := by
  have single : (fun line short => chomp line = short) =
      Text.Shortened fun c => c == '\r' || c == '\n' := by
    funext line short
    exact propext Text.trimEnd_eq_iff
  have chomped : pipedLines text = lines ↔
      List.Forall₂ (Text.Shortened fun c => c == '\r' || c == '\n') (Text.inputLines text)
        lines := by
    rw [← single, ← List.forall₂_map_left_iff (R := (· = ·)), List.forall₂_eq_eq_eq, pipedLines]
  rw [chomped, Piped]
  constructor
  · intro shortened
    exact ⟨_, Text.inputLines_eq_iff.mp rfl, shortened⟩
  · rintro ⟨typed, inLines, shortened⟩
    rwa [Text.inputLines_eq_iff.mpr inLines]

example : pipedLines "1 + 1\r\n\nexit" = ["1 + 1", "", "exit"] := by decide +kernel

/-- A shell on any lines is the same as feeding the statements among them directly, and nothing ends
it early. The line that ends it is the first that asks for one of the two words for leaving, or the
end of the lines; everything after that line is left. The interpreter at the end is the one that was
fed, in order, the earlier lines that are no commands. The output is the transcript, and colours
change no more than how each passage of it is shown. The command that is asked for neither a file
nor statements runs a shell on the lines that are typed; it adds only what it tells of its progress,
and ends by itself. The name that a line begins with always agrees with the word that made the line
a command. The lines themselves are those of the text that is typed or piped. -/
theorem loop_is_fold_of_feed (interpreter : Interpreter σ) (terminal : Terminal)
    (lines : List String) :
    let fed := (interpreter.feedAll (statements (served lines))).2
    let passages := transcript interpreter lines
    (∀ color, loop ⟨interpreter, color, terminal⟩ lines =
        (String.join (passages.map (Passage.shown terminal color)),
          lines.drop ((served lines).length + 1), ⟨fed, color, terminal⟩)) ∧
      (∀ settings : Settings, settings.runShell terminal interpreter lines =
        { out := settings.step "starting shell" ++
            String.join (passages.map (Passage.shown terminal settings.color))
          err := ""
          ending := .returned 0 }) ∧
      (∀ (settings : Settings) policy (draw : σ → Binary64 × σ) hidden files text,
        let asked := { settings with policy := some policy, input := none, statements := [] }
        asked.run terminal draw hidden files text =
          (asked.runShell terminal (asked.interpreter policy draw hidden)
            (Text.inputLines text)).after (asked.started policy)) ∧
      (∀ passage ∈ passages, passage.shown terminal false = passage.text ∧
        ((passage.ink = none ∧ passage.shown terminal true = passage.text) ∨
          ∃ ink, passage.ink = some ink ∧
            passage.shown terminal true =
              terminal.opening ink ++ passage.text ++ terminal.closing)) ∧
      (∀ line word, request line = word ↔ Asks line word) ∧
      (∀ line, Command.dispatched line = Command.ofLine line) ∧
      ∀ text, (Text.inputLines text = lines ↔ Text.InLines text lines) ∧
        (pipedLines text = lines ↔ Piped text lines) := by
  intro fed passages
  have loops (color : Bool) : loop ⟨interpreter, color, terminal⟩ lines =
      (String.join (passages.map (Passage.shown terminal color)),
        lines.drop ((served lines).length + 1), ⟨fed, color, terminal⟩) := by
    rw [loop, runLines_eq]
    simp only [passages, transcript, List.map_cons, String.join_cons, shown, Passage.shown]
    rfl
  refine ⟨loops, fun settings => ?_, fun settings policy draw hidden files text => rfl,
    fun passage _ => passage.shown_cases terminal, fun line word => request_eq_iff,
    Command.dispatched_eq_ofLine, fun text => ⟨Text.inputLines_eq_iff, pipedLines_eq_iff⟩⟩
  rw [Settings.runShell, loops]

end Shell

end Calculator

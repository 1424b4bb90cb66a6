import Mathlib.Data.List.Destutter
import Calculator.Proofs.Console.Reset

namespace Calculator

namespace History

inductive Event where
  | type (text : String)
  | submit (line : String)
  | press (key : KeyPress)
deriving DecidableEq

/-- The input line after an event. A line that is submitted leaves an empty one. -/
def react (history : History) : Event → History
  | .type text => history.type text
  | .submit line => (history.record line).type ""
  | .press key => history.press key

def reactAll (history : History) (events : List Event) : History :=
  events.foldl react history

theorem reactAll_append (history : History) (first second : List Event) :
    history.reactAll (first ++ second) = (history.reactAll first).reactAll second :=
  List.foldl_append

/-- The line that an event submits, if it does. -/
def Event.submitted? : Event → Option String
  | .submit line => some line
  | .type _ => none
  | .press _ => none

/-- The lines that are worth remembering: those that are not empty, and of equal ones in a row the
first. -/
def worthwhile (lines : List String) : List String :=
  (lines.filter (· ≠ "")).destutter (· ≠ ·)

private theorem destutter'_concat {α : Type} [DecidableEq α] (first : α) (rest : List α)
    (last : α) :
    (rest ++ [last]).destutter' (· ≠ ·) first =
      if (rest.destutter' (· ≠ ·) first).getLast? = some last then
        rest.destutter' (· ≠ ·) first
      else rest.destutter' (· ≠ ·) first ++ [last] := by
  induction rest generalizing first with
  | nil => by_cases same : first = last <;> simp [same]
  | cons second rest ih =>
    by_cases same : first = second
    · rw [List.cons_append, List.destutter'_cons_neg _ (by simpa using same), ih,
        List.destutter'_cons_neg _ (by simpa using same)]
    · obtain ⟨kept, more, shape⟩ :=
        List.exists_cons_of_ne_nil (List.destutter'_ne_nil rest (· ≠ ·) (a := second))
      rw [List.cons_append, List.destutter'_cons_pos _ same, ih, List.destutter'_cons_pos _ same,
        shape, List.getLast?_cons_cons]
      split <;> rfl

/-- A line is worth remembering behind others unless it is empty or the last of them again. -/
theorem worthwhile_concat (lines : List String) (line : String) :
    worthwhile (lines ++ [line]) =
      if line = "" || (worthwhile lines).getLast? = some line then worthwhile lines
      else worthwhile lines ++ [line] := by
  by_cases empty : line = ""
  · simp [worthwhile, empty]
  · have kept : (lines ++ [line]).filter (· ≠ "") = lines.filter (· ≠ "") ++ [line] := by
      simp [empty]
    rw [worthwhile, worthwhile, kept]
    cases lines.filter (· ≠ "") with
    | nil => simp [empty]
    | cons first rest =>
      rw [List.cons_append, List.destutter_cons', List.destutter_cons', destutter'_concat]
      simp only [empty, decide_false, Bool.false_or, decide_eq_true_eq]

/-- The remembered lines are the submitted ones that are worth it, and the position is one of theirs
or the one behind them. -/
structure Follows (submitted : List String) (history : History) : Prop where
  lines : history.lines = worthwhile submitted
  within : history.index ≤ history.lines.length

/-- What is shown is the line at the position. -/
def ShowsLine (history : History) : Prop :=
  history.index < history.lines.length ∧ history.lines[history.index]? = some history.text

/-- The position is behind the last line, and nothing is shown. -/
def ShowsNothing (history : History) : Prop :=
  history.index = history.lines.length ∧ history.text = ""

theorem press_lines (history : History) (key : KeyPress) :
    (history.press key).lines = history.lines := by
  unfold press
  cases key <;> dsimp only <;> split <;> rfl

theorem press_of_no_lines {history : History} (none : history.lines = []) (key : KeyPress) :
    history.press key = { history with passed := history.passed + 1 } := by
  cases key <;> simp [press, none]

section Keys

variable {history : History} (within : history.index ≤ history.lines.length)

include within

theorem press_up_index : (history.press .up).index = history.index - 1 := by
  by_cases none : history.lines = []
  · rw [none, List.length_nil] at within
    rw [press_of_no_lines none]
    dsimp only
    omega
  · simp [press, none, showAt]

theorem press_down_index :
    (history.press .down).index = min history.lines.length (history.index + 1) := by
  by_cases none : history.lines = []
  · rw [none, List.length_nil] at within ⊢
    rw [press_of_no_lines none]
    dsimp only
    omega
  · simp [press, none, showAt]

theorem press_within (key : KeyPress) :
    (history.press key).index ≤ (history.press key).lines.length := by
  rw [press_lines]
  cases key with
  | up => rw [press_up_index within]; omega
  | down => rw [press_down_index within]; omega
  | other => exact within

theorem showsLine_press_up (some : history.lines ≠ []) : (history.press .up).ShowsLine := by
  have present : history.index - 1 < history.lines.length := by
    have length := List.length_pos_iff.mpr some
    omega
  rw [ShowsLine, press_up_index within, press_lines]
  simp [present, press, some, showAt]

theorem shows_press_down (some : history.lines ≠ []) :
    (history.press .down).ShowsLine ∨ (history.press .down).ShowsNothing := by
  rw [ShowsLine, ShowsNothing, press_down_index within, press_lines]
  by_cases last : history.lines.length ≤ history.index + 1
  · right
    simp [Nat.min_eq_left last, press, some, showAt]
  · left
    have present : history.index + 1 < history.lines.length := by omega
    simp [Nat.min_eq_right (Nat.le_of_lt present), present, press, some, showAt]

theorem reactAll_ups (count : Nat) :
    (history.reactAll (.replicate count (.press .up))).lines = history.lines ∧
      (history.reactAll (.replicate count (.press .up))).index = history.index - count := by
  induction count generalizing history with
  | zero => exact ⟨rfl, rfl⟩
  | succ count ih =>
    obtain ⟨lines, index⟩ := ih (press_within within .up)
    rw [press_lines] at lines
    rw [press_up_index within] at index
    exact ⟨lines, index.trans (by omega)⟩

theorem reactAll_downs_index (count : Nat) :
    (history.reactAll (.replicate count (.press .down))).index =
      min history.lines.length (history.index + count) := by
  induction count generalizing history with
  | zero => exact (Nat.min_eq_right within).symm
  | succ count ih =>
    have index := ih (press_within within .down)
    rw [press_lines, press_down_index within] at index
    exact index.trans (by omega)

end Keys

namespace Follows

variable {submitted : List String} {history : History}

theorem start : ({} : History).Follows [] :=
  ⟨rfl, Nat.le_refl 0⟩

theorem react (follows : history.Follows submitted) (event : Event) :
    (history.react event).Follows (submitted ++ event.submitted?.toList) := by
  cases event with
  | type text =>
    rw [Event.submitted?, Option.toList_none, List.append_nil]
    exact ⟨follows.lines, follows.within⟩
  | submit line =>
    refine ⟨?_, Nat.le_refl _⟩
    rw [Event.submitted?, Option.toList_some, worthwhile_concat, ← follows.lines]
    rfl
  | press key =>
    rw [Event.submitted?, Option.toList_none, List.append_nil]
    exact ⟨(history.press_lines key).trans follows.lines, press_within follows.within key⟩

theorem reactAll (follows : history.Follows submitted) (events : List Event) :
    (history.reactAll events).Follows (submitted ++ events.filterMap Event.submitted?) := by
  induction events generalizing submitted history with
  | nil => rwa [List.filterMap_nil, List.append_nil]
  | cons event rest ih =>
    have later := ih (follows.react event)
    rw [List.append_assoc] at later
    cases event <;> exact later

theorem empty_notMem (follows : history.Follows submitted) : "" ∉ history.lines := by
  intro member
  rw [follows.lines] at member
  have kept := (List.destutter_sublist _ _).subset member
  simp at kept

theorem isChain (follows : history.Follows submitted) : history.lines.IsChain (· ≠ ·) := by
  rw [follows.lines]
  exact List.isChain_destutter _ _

end Follows

end History

namespace Console

variable {σ : Type}

/-- What an action at a console means to its input line. -/
def inputEvents (console : Console σ) : Action → List History.Event
  | .type text => [.type text]
  | .press key => [.press key]
  | .submit => [.submit console.input.text]
  | _ => []

theorem act_input (console : Console σ) (action : Action) :
    (console.act action).input = console.input.reactAll (console.inputEvents action) := by
  cases action <;> rfl

/-- Whatever is done at a console, its input line sees events only. -/
theorem exists_actAll_input (console : Console σ) (actions : List Action) :
    ∃ events, (console.actAll actions).input = console.input.reactAll events := by
  induction actions generalizing console with
  | nil => exact ⟨[], rfl⟩
  | cons action rest ih =>
    obtain ⟨events, later⟩ := ih (console.act action)
    refine ⟨console.inputEvents action ++ events, ?_⟩
    rw [History.reactAll_append, ← act_input]
    exact later

end Console

/-- How an input line walks through what was submitted. After any events the remembered lines are
the submitted ones that are worth it, so that none is empty and no two in a row are equal; the
position is among them or behind the last, where every submission puts it. A key press with
remembered lines shows the line at the new position, which exists, or, when it went down behind the
last line, nothing; without remembered lines it is left to someone else. From a submission on, a
number of presses up and then a number of presses down go as far as there are lines and no further.
The input line of a console never goes through anything but such events. -/
theorem History.walk_through_submitted (events : List Event) (history : History)
    (reached : ({} : History).reactAll events = history) :
    history.lines = worthwhile (events.filterMap Event.submitted?) ∧
      "" ∉ history.lines ∧ history.lines.IsChain (· ≠ ·) ∧
      history.index ≤ history.lines.length ∧
      (history.lines ≠ [] → (history.press .up).ShowsLine ∧
        ((history.press .down).ShowsLine ∨ (history.press .down).ShowsNothing)) ∧
      (history.lines = [] → ∀ key,
        history.press key = { history with passed := history.passed + 1 }) ∧
      (∀ line, let fresh := history.react (.submit line)
        fresh.index = fresh.lines.length ∧
          ∀ ups downs, (fresh.reactAll (.replicate ups (.press .up) ++
              .replicate downs (.press .down))).index =
            min fresh.lines.length (fresh.lines.length - ups + downs)) ∧
      ∀ {σ : Type} (console : Console σ), console.input = history → ∀ actions, ∃ more,
        (console.actAll actions).input = ({} : History).reactAll (events ++ more) := by
  have follows : history.Follows (events.filterMap Event.submitted?) := by
    have run := Follows.start.reactAll events
    rwa [List.nil_append, reached] at run
  have within := follows.within
  refine ⟨follows.lines, follows.empty_notMem, follows.isChain, within, ?_, ?_, ?_, ?_⟩
  · exact fun some => ⟨showsLine_press_up within some, shows_press_down within some⟩
  · exact fun none => press_of_no_lines none
  · intro line fresh
    have behind : fresh.index = fresh.lines.length := rfl
    refine ⟨behind, fun ups downs => ?_⟩
    obtain ⟨lines, index⟩ := reactAll_ups (Nat.le_of_eq behind) ups
    have inside : (fresh.reactAll (.replicate ups (.press .up))).index ≤
        (fresh.reactAll (.replicate ups (.press .up))).lines.length := by
      rw [lines, index]
      omega
    rw [reactAll_append, reactAll_downs_index inside, lines, index, behind]
  · rintro σ console rfl actions
    obtain ⟨more, input⟩ := console.exists_actAll_input actions
    exact ⟨more, by rw [input, reactAll_append, reached]⟩

/-- Two lines with a repetition and an empty line among them, a look at the last one, and a text
that is not submitted. -/
def hesitantEvents : List History.Event :=
  [.submit "1", .submit "1", .submit "", .submit "1", .submit "2", .press .up, .type "3"]

/-- Two lines are remembered. A press up from the last shows the first; and once the text is
submitted, five presses up and two down stand at the last of the three. -/
theorem hesitant_walk :
    ({} : History).reactAll hesitantEvents = ⟨"3", ["1", "2"], 1, 0⟩ ∧
      (History.press ⟨"3", ["1", "2"], 1, 0⟩ .up).ShowsLine ∧
      ((History.react ⟨"3", ["1", "2"], 1, 0⟩ (.submit "3")).reactAll
        (.replicate 5 (.press .up) ++ .replicate 2 (.press .down))).index = min 3 (3 - 5 + 2) := by
  have reached : ({} : History).reactAll hesitantEvents = ⟨"3", ["1", "2"], 1, 0⟩ := by decide
  obtain ⟨-, -, -, -, keys, -, submission, -⟩ :=
    History.walk_through_submitted hesitantEvents _ reached
  exact ⟨reached, (keys (by decide)).1, (submission "3").2 5 2⟩

end Calculator

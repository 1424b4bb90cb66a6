import Calculator.Console.Window
import Calculator.Proofs.Evaluation.Hiding
import Calculator.Proofs.Session.Permanence
import Calculator.Proofs.Shell.Loop

/-! What a reset of the console forgets. Nothing that is done at a console, be it a definition, a
failure or another reset, changes what the interpreter was set up with, so a reset comes back to the
interpreter as it was first set up. All that outlives a reset is the hidden state of the builtins,
and pure builtins do not show it. -/

namespace Calculator

variable {σ : Type}

/-- What an interpreter is set up with. -/
structure Setup (σ : Type) where
  builtins : Table (Builtin σ)
  constants : Table Binary64
  policy : CachePolicy
  limit : FrameLimit

def Setup.fresh (setup : Setup σ) (hidden : σ) : Interpreter σ :=
  .create setup.builtins setup.constants setup.policy setup.limit hidden

namespace Interpreter

/-- The setup that a reset goes by, as it is found in the interpreter. -/
def setup (interpreter : Interpreter σ) : Setup σ where
  builtins := interpreter.builtins
  constants := interpreter.constants
  policy := interpreter.session.cache.policy
  limit := interpreter.limit

theorem reset_eq_fresh (interpreter : Interpreter σ) :
    interpreter.reset = interpreter.setup.fresh interpreter.machine.hidden :=
  rfl

theorem serve_setup (interpreter : Interpreter σ) (request : Request) :
    (interpreter.serve request).setup = interpreter.setup := by
  have policy : (interpreter.serve request).session.cache.policy =
      interpreter.session.cache.policy := interpreter.serve_policy request
  have others : (interpreter.serve request).constants = interpreter.constants ∧
      (interpreter.serve request).limit = interpreter.limit := by
    rw [serve_eq]
    split <;> cases request <;> exact ⟨rfl, rfl⟩
  simp only [setup, interpreter.serve_builtins request, policy, others.1, others.2]

theorem serveAll_setup (interpreter : Interpreter σ) (requests : List Request) :
    (interpreter.serveAll requests).setup = interpreter.setup := by
  induction requests generalizing interpreter with
  | nil => rfl
  | cons request rest ih => exact (ih _).trans (interpreter.serve_setup request)

/-- The interpreter was made with the setup and has served requests since. -/
def Descends (setup : Setup σ) (interpreter : Interpreter σ) : Prop :=
  ∃ hidden requests, interpreter = (setup.fresh hidden).serveAll requests

theorem Descends.setup_eq {setup : Setup σ} {interpreter : Interpreter σ}
    (descends : interpreter.Descends setup) : interpreter.setup = setup := by
  obtain ⟨hidden, requests, rfl⟩ := descends
  exact serveAll_setup (setup.fresh hidden) requests

end Interpreter

namespace Console

inductive Action where
  | type (text : String)
  | press (key : KeyPress)
  | submit
  | reset
  | clear
  | chooseTheme (choice : ThemeChoice)

def act (console : Console σ) : Action → Console σ
  | .type text => console.type text
  | .press key => console.press key
  | .submit => console.submit
  | .reset => console.reset
  | .clear => console.clear
  | .chooseTheme choice => console.chooseTheme choice

def actAll (console : Console σ) (actions : List Action) : Console σ :=
  actions.foldl act console

/-- Only submitting a line and resetting reach the interpreter, and neither changes its setup. -/
theorem act_setup (console : Console σ) (action : Action) :
    (console.act action).interpreter.setup = console.interpreter.setup := by
  cases action with
  | submit => exact console.interpreter.serve_setup (.feed console.input.text)
  | reset => rfl
  | _ => rfl

theorem actAll_setup (console : Console σ) (actions : List Action) :
    (console.actAll actions).interpreter.setup = console.interpreter.setup := by
  induction actions generalizing console with
  | nil => rfl
  | cons action rest ih => exact (ih _).trans (console.act_setup action)

/-- Something that is written to the transcript, with its role if it has one. -/
structure Remark where
  text : String
  role : Option OutputRole
deriving DecidableEq

def Remark.entry (theme : Theme) (remark : Remark) : Entry :=
  ⟨remark.text, remark.role.map theme.shade.outputColour⟩

/-- What is written for a line with an outcome: the line behind a mark, then the outcome. -/
def exchange (line : String) (outcome : Except StatementFailure Answer) : List Remark :=
  [⟨"> " ++ line, none⟩, ⟨outcomeText outcome, some (role outcome)⟩]

/-- What is written for lines that are fed to an interpreter one after the other. -/
def remarks (interpreter : Interpreter σ) (lines : List String) : List Remark :=
  (lines.zipWith exchange (interpreter.feedAll lines).1).flatten

def enterAll (console : Console σ) (lines : List String) : Console σ :=
  lines.foldl (fun console line => (console.type line).submit) console

/-- A submitted line has one exchange and moves the interpreter on; the theme stays. -/
theorem submit_typed (console : Console σ) (line : String) :
    ((console.type line).submit).interpreter = (console.interpreter.feed line).2 ∧
      ((console.type line).submit).theme = console.theme ∧
      ((console.type line).submit).transcript = console.transcript ++
        (exchange line (console.interpreter.feed line).1).map (·.entry console.theme) :=
  ⟨rfl, rfl, List.append_assoc ..⟩

theorem remarks_cons (interpreter : Interpreter σ) (line : String) (rest : List String) :
    remarks interpreter (line :: rest) =
      exchange line (interpreter.feed line).1 ++ remarks (interpreter.feed line).2 rest :=
  rfl

theorem enterAll_transcript (console : Console σ) (lines : List String) :
    (console.enterAll lines).transcript =
      console.transcript ++ (remarks console.interpreter lines).map (·.entry console.theme) := by
  induction lines generalizing console with
  | nil => exact (List.append_nil _).symm
  | cons line rest ih =>
    obtain ⟨interpreter, theme, transcript⟩ := console.submit_typed line
    have entered : console.enterAll (line :: rest) = (console.type line).submit.enterAll rest := rfl
    rw [entered, ih, interpreter, theme, transcript, remarks_cons, List.map_append,
      List.append_assoc]

/-- An uncoloured answer of a shell is the outcome as a console words it. -/
theorem report_false (terminal : Terminal) (outcome : Except StatementFailure Answer) :
    Shell.report terminal false outcome = outcomeText outcome := by
  rcases outcome with failure | answer <;> rfl

/-- The remarks about lines are the lines behind their marks and the answers of an uncoloured
shell, in turn. -/
theorem remarks_text (terminal : Terminal) (interpreter : Interpreter σ) (lines : List String) :
    (remarks interpreter lines).map (fun remark => remark.text ++ "\n") =
      (lines.zipWith (fun line answer => ["> " ++ line ++ "\n", answer])
        (Shell.answers ⟨interpreter, false, terminal⟩ lines)).flatten := by
  induction lines generalizing interpreter with
  | nil => rfl
  | cons line rest ih =>
    rw [remarks_cons, List.map_append, ih]
    simp only [Shell.answers, Shell.runStatement, exchange, List.map_cons, List.map_nil,
      List.zipWith_cons_cons, List.flatten_cons, report_false]

/-- A reset forgets everything but the setup. Whatever was done at a console whose interpreter was
set up in some way, a reset makes the interpreter a new one with that setup, leaves the input line
with its history and the theme alone, and adds one remark to the transcript. If the builtins of the
setup are pure, what is written for lines that are entered after the reset, texts and roles, is
settled by the setup alone: it is the same for all consoles and all that was done there before, and
the texts are those of an uncoloured shell on a new interpreter with the setup. -/
theorem reset_forgets (setup : Setup σ) :
    (∀ (console : Console σ) (actions : List Action), console.interpreter.Descends setup →
      let before := console.actAll actions
      before.reset =
        { before with
          interpreter := setup.fresh before.interpreter.machine.hidden
          transcript := before.transcript ++
            [Remark.entry before.theme ⟨"<session reset>", some .text⟩] }) ∧
    (Builtin.AllPure setup.builtins → ∀ (hidden : σ) (lines : List String),
      (∀ (console : Console σ) (actions : List Action), console.interpreter.Descends setup →
        let before := console.actAll actions
        (before.reset.enterAll lines).transcript = before.reset.transcript ++
          (remarks (setup.fresh hidden) lines).map (·.entry before.theme)) ∧
      ∀ terminal, (remarks (setup.fresh hidden) lines).map (fun remark => remark.text ++ "\n") =
        (lines.zipWith (fun line answer => ["> " ++ line ++ "\n", answer])
          (Shell.answers ⟨setup.fresh hidden, false, terminal⟩ lines)).flatten) := by
  have resets : ∀ (console : Console σ) (actions : List Action),
      console.interpreter.Descends setup → (console.actAll actions).interpreter.reset =
        setup.fresh (console.actAll actions).interpreter.machine.hidden := by
    intro console actions descends
    rw [Interpreter.reset_eq_fresh, actAll_setup, descends.setup_eq]
  constructor
  · intro console actions descends before
    simp only [reset, append, before, resets console actions descends]
    rfl
  · intro pure hidden lines
    refine ⟨?_, fun terminal => remarks_text terminal _ lines⟩
    intro console actions descends before
    have fresh : before.reset.interpreter =
        (setup.fresh hidden).withHidden before.interpreter.machine.hidden :=
      resets console actions descends
    have theme : before.reset.theme = before.theme := rfl
    have kept : Builtin.AllPure (setup.fresh hidden).builtins := pure
    have outcomes := Interpreter.feedAll_withHidden kept before.interpreter.machine.hidden lines
    rw [enterAll_transcript, fresh, theme, remarks, remarks, outcomes]

end Console

/-- A builtin that counts its calls in secret. -/
def countedDouble : Builtin Nat where
  arity := 1
  run args calls := (.ok ((args.headD (.zero false)).add (args.headD (.zero false))), calls + 1)

def doublingSetup : Setup Nat :=
  ⟨⟨[("double", countedDouble)]⟩, ⟨[("x", .ofInt 1)]⟩, .session, .standard⟩

/-- A constant that is set anew, a function that is defined, calls, a failure and another reset. -/
def earlierActions : List Console.Action :=
  [.type "const x = 5", .submit, .type "double(x)", .submit, .reset, .type "let f(n) = x + n",
    .submit, .type "f(", .submit, .type "const x = double(f(2))", .submit, .chooseTheme .system]

/-- After a reset nothing of that is left but the secret count: the constant has its first value,
the function is undefined, and statements are counted from one. -/
theorem earlier_actions_forgotten :
    let console : Console Nat := { interpreter := doublingSetup.fresh 0, theme := .load none }
    let before := console.actAll earlierActions
    before.reset.interpreter = doublingSetup.fresh 2 ∧
      (before.reset.enterAll ["double(x)", "f(2)"]).transcript =
        before.reset.transcript ++
          [⟨"> double(x)", none⟩, ⟨"2", some "#8d6e00"⟩, ⟨"> f(2)", none⟩,
            ⟨"(Statement 2) undefined function f", some "#c62828"⟩] := by
  intro console before
  have descends : console.interpreter.Descends doublingSetup := ⟨0, [], rfl⟩
  have calls : before.interpreter.machine.hidden = 2 := by decide +kernel
  have pure : Builtin.AllPure doublingSetup.builtins := by
    intro name builtin given
    obtain ⟨earlier, later, entries, -⟩ := List.lookup_eq_some_iff.mp given
    have member : (name, builtin) ∈ doublingSetup.builtins.entries := by simp [entries]
    cases List.mem_singleton.mp member
    exact fun _ _ _ => rfl
  obtain ⟨afresh, settled⟩ := Console.reset_forgets doublingSetup
  have written : (Console.remarks (doublingSetup.fresh 7) ["double(x)", "f(2)"]).map
      (·.entry before.theme) =
      [⟨"> double(x)", none⟩, ⟨"2", some "#8d6e00"⟩, ⟨"> f(2)", none⟩,
        ⟨"(Statement 2) undefined function f", some "#c62828"⟩] := by decide +kernel
  constructor
  · rw [afresh console earlierActions descends, ← calls]
  · rw [← written]
    exact (settled pure 7 ["double(x)", "f(2)"]).1 console earlierActions descends

end Calculator

import Calculator.Proofs.Evaluation.Atomicity
import Calculator.Proofs.Session.Acceptance
import Calculator.Proofs.Statement.Marks
import Calculator.Proofs.Statement.Parameters

namespace Calculator

variable {σ τ : Type}

namespace Slot

theorem alike_dropZeroSign {slot : Slot} (writable : slot.Writable) :
    slot.Alike slot.dropZeroSign := by
  cases slot with
  | bind name => exact .bind name
  | literal x =>
    have defined := Binary64.isNaN_of_isFinite (Binary64.isFinite_of_writtenOut writable)
    refine .literal ?_
    simp [Binary64.equal, Binary64.isNaN_dropZeroSign, defined, Binary64.dropZeroSign_dropZeroSign]

theorem text_dropZeroSign {slot : Slot} (writable : slot.Writable) :
    slot.dropZeroSign.text = slot.text := by
  cases slot with
  | bind name => rfl
  | literal x =>
    have finite := Binary64.isFinite_of_writtenOut writable
    cases zero : x.isZero with
    | false => simp [dropZeroSign, Binary64.dropZeroSign, zero]
    | true =>
      simp only [dropZeroSign, Binary64.dropZeroSign, zero, if_true, text, Binary64.text,
        Binary64.chars_of_isZero finite zero]
      rfl

end Slot

namespace Pattern

theorem alike_map_dropZeroSign {pattern : Pattern} (writable : ∀ slot ∈ pattern, slot.Writable) :
    List.Forall₂ Slot.Alike pattern (pattern.map Slot.dropZeroSign) :=
  List.forall₂_map_right_iff.mpr
    (List.forall₂_same.mpr fun slot member => Slot.alike_dropZeroSign (writable slot member))

theorem text_map_dropZeroSign {pattern : Pattern} (writable : ∀ slot ∈ pattern, slot.Writable) :
    Pattern.text (pattern.map Slot.dropZeroSign) = pattern.text := by
  rw [text, text, List.map_map]
  exact congrArg _ (List.map_congr_left fun slot member =>
    Slot.text_dropZeroSign (writable slot member))

end Pattern

namespace Statement

/-- Parameters that are slots as they stand take no more than two frames and touch nothing. -/
theorem slots_of_plain (builtins : Table (Builtin σ)) {frames : Nat} (enough : 2 ≤ frames)
    {params : List Expr} {pattern : Pattern} (plain : List.Forall₂ Expr.Plain params pattern)
    (machine : Machine σ) :
    slots (Expr.evaluate builtins frames) params machine = (.ok pattern, machine) := by
  obtain ⟨fewer, rfl⟩ : ∃ fewer, frames = fewer + 2 := ⟨frames - 2, by omega⟩
  induction plain with
  | nil => rfl
  | @cons param slot _ _ first _ ih =>
    have single : Statement.slot (Expr.evaluate builtins (fewer + 2)) param machine =
        (.ok slot, machine) := by
      cases first <;> rfl
    rw [slots_cons, single, Evaluated.andThen_ok, ih, Evaluated.andThen_ok]

end Statement

theorem Interpreter.feed_definition (interpreter : Interpreter σ) {frames : Nat}
    (allowed : interpreter.limit.budget = .ok (frames + 1)) {name : String}
    (word : Token.IsWord name)
    {pattern : Pattern} (writable : ∀ slot ∈ pattern, slot.Writable) {text : String} {expr : Expr}
    (read : Statement.read frames text = .ok (some (.expression expr))) :
    (interpreter.feed (pattern.definition name text)).1 = .ok (.clauseAdded name pattern) ∧
      ∃ distance, interpreter.session.GainsClause
        (interpreter.feed (pattern.definition name text)).2.session name
        ⟨pattern.map Slot.dropZeroSign, expr.shift distance⟩ := by
  have enough : 13 ≤ frames :=
    Nat.le_of_succ_le_succ (le_trans (by decide) (FrameLimit.least_le_of_budget allowed))
  obtain ⟨params, distance, whole, plain⟩ := Statement.read_definition word writable enough read
  have slots := Statement.slots_of_plain interpreter.builtins (by omega : 2 ≤ frames) plain
    interpreter.counted.machine
  have same : interpreter.counted.limit = interpreter.limit := rfl
  have builtins : interpreter.counted.builtins = interpreter.builtins := rfl
  have fed : interpreter.feed (pattern.definition name text) =
      (.ok (.clauseAdded name (pattern.map Slot.dropZeroSign)),
        { interpreter with machine := { interpreter.counted.machine with
            session := interpreter.counted.session.appendClause name
              ⟨pattern.map Slot.dropZeroSign, expr.shift distance⟩ } }) := by
    simp only [feed, same, allowed, run, whole, perform, Statement.perform, Statement.allowance,
      Nat.add_sub_cancel, builtins, slots]
    rfl
  have untouched : interpreter.session.Untouched interpreter.counted.session := ⟨rfl, rfl⟩
  rw [fed]
  refine ⟨?_, distance, Session.gainsClause_appendClause untouched name _⟩
  rw [Answer.clauseAdded, Pattern.text_map_dropZeroSign writable, Answer.clauseAdded]

namespace Statement

theorem Slotted.exists_var {value : Expr → Machine σ → Evaluated σ Binary64} {params : List Expr}
    {machine after : Machine σ} {pattern : Pattern}
    (slotted : Slotted value params machine pattern after) {name : String}
    (member : Slot.bind name ∈ pattern) : ∃ pos, .var name pos ∈ params := by
  induction slotted with
  | nil => cases member
  | @name _ pos _ _ _ _ _ ih =>
    obtain same | later := List.mem_cons.mp member
    · cases same
      exact ⟨pos, List.mem_cons_self⟩
    · obtain ⟨pos, found⟩ := ih later
      exact ⟨pos, List.mem_cons_of_mem _ found⟩
  | literal _ _ _ ih =>
    obtain same | later := List.mem_cons.mp member
    · cases same
    · obtain ⟨pos, found⟩ := ih later
      exact ⟨pos, List.mem_cons_of_mem _ found⟩

end Statement

theorem Expr.mem_marksAll_of_var {params : List Expr} {name : String} {pos : Option Nat}
    (member : .var name pos ∈ params) : ⟨pos, .word name⟩ ∈ Expr.marksAll params := by
  induction params with
  | nil => cases member
  | cons first rest ih =>
    rw [Expr.marksAll, List.mem_append]
    obtain rfl | later := List.mem_cons.mp member
    · exact .inl List.mem_cons_self
    · exact .inr (ih later)

/-- Among numbers, words and operators only a word leaves the mark of a word. -/
theorem Token.exists_word_of_mem_marksOf {tokens : List Token} {pos : Option Nat} {text : String}
    (member : ⟨pos, .word text⟩ ∈ marksOf [.number, .word, .operator] tokens) :
    ∃ token ∈ tokens, token.kind = .word ∧ token.text = text := by
  rw [marksOf, List.mem_map] at member
  obtain ⟨token, found, mark⟩ := member
  obtain ⟨present, counts⟩ := List.mem_filter.mp found
  have spelled : token.sign = .word text := congrArg Mark.sign mark
  simp only [List.mem_cons, List.not_mem_nil, or_false, decide_eq_true_eq] at counts
  obtain number | word | operator := counts
  · simp [sign, number] at spelled
  · simp only [sign, word, Sign.word.injEq] at spelled
    exact ⟨token, present, word, spelled⟩
  · simp [sign, operator] at spelled

/-- The name of a clause that was read, and the names among its parameters, are words. -/
theorem Statement.isWord_of_read_clause {frames : Nat} {text name : String} {params : List Expr}
    {body : Expr} {pos : Option Nat}
    (read : Statement.read frames text = .ok (some (.clause name params body pos))) :
    Token.IsWord name ∧ ∀ other place, .var other place ∈ params → Token.IsWord other := by
  obtain ⟨tokens, ending, scanned, -, sentence⟩ := Statement.exists_sentence_of_read read
  cases sentence with
  | @clause opening word equals list tokens _ _ _ kind listed _ _ =>
    have inside : ∀ token ∈ word :: list, token ∈ Token.scan text := by
      intro token member
      rw [scanned]
      apply List.mem_append_left
      apply List.mem_cons_of_mem
      rw [← List.cons_append]
      exact List.mem_append_left _ member
    refine ⟨Token.isWord_of_mem (inside word List.mem_cons_self) kind, ?_⟩
    intro other place member
    have essential : Token.Essential [.number, .word, .operator] := by constructor <;> decide
    have marked := Expr.mem_marksAll_of_var member
    rw [listed.marks essential] at marked
    obtain ⟨token, present, isWord, rfl⟩ := Token.exists_word_of_mem_marksOf marked
    exact Token.isWord_of_mem (inside token (List.mem_cons_of_mem _ present)) isWord

section Confirmation

theorem Token.Shape.opening_notMem {kind : Token.Kind} {chars : List Char}
    (shape : Token.Shape kind chars) (counts : kind ∈ [.number, .word]) : '(' ∉ chars := by
  have digit : Token.isDigit '(' ≠ true := by decide
  intro member
  cases shape with
  | whole _ digits => exact digit (digits _ member)
  | pointed _ digits fraction =>
    simp only [List.mem_append, List.mem_cons] at member
    obtain before | point | behind := member
    · exact digit (digits _ before)
    · cases point
    · exact digit (fraction _ behind)
  | word first more =>
    obtain rfl | behind := List.mem_cons.mp member
    · cases first
    · cases more _ behind
  | _ => simp at counts

theorem Token.IsWord.opening_notMem {name : String} (word : Token.IsWord name) :
    '(' ∉ name.toList := by
  have tokenised : Token.Tokenised name (Token.scan name) := Token.tokenised_iff_scan.mpr rfl
  have member : ⟨.word, name, 0⟩ ∈ Token.scan name := by
    rw [Token.scan_eq_body, word]
    exact List.mem_cons_self
  exact (tokenised.shaped _ member).opening_notMem (by simp)

theorem Decimal.opening_notMem_chars (decimal : Decimal) : '(' ∉ decimal.chars := by
  have digits (n : Nat) : '(' ∉ digitChars n :=
    fun member => absurd (isDigit_of_mem_digitChars n _ member) (by decide)
  by_cases positional : decimal.Positional
  · exact (spells_of_positional positional).shape.opening_notMem (by simp)
  · have front := shape_mantissa (digitChars_ne_nil decimal.digits)
      (isDigit_of_mem_digitChars decimal.digits)
    rw [chars_of_not_positional positional, scientific_eq, List.mem_append, List.mem_cons]
    rintro (member | ⟨⟨⟩⟩ | member)
    · exact front.opening_notMem (by simp) member
    · rw [exponentChars, List.mem_cons] at member
      obtain sign | member := member
      · split at sign <;> cases sign
      · exact digits _ member

theorem Binary64.opening_notMem_chars (x : Binary64) : '(' ∉ x.chars := by
  have digits := (Decimal.shortest x).opening_notMem_chars
  rcases x with _ | (_ | _) | ⟨negative, significand, exponent, canonical⟩
  · decide
  · decide
  · decide
  · by_cases zero : significand = 0
    · simp [chars, zero]
    · cases negative <;> simp [chars, zero, digits]

theorem Pattern.opening_notMem_text {pattern : Pattern}
    (words : ∀ name, .bind name ∈ pattern → Token.IsWord name) : '(' ∉ pattern.text.toList := by
  have single {slot : Slot} (member : slot ∈ pattern) : '(' ∉ slot.text.toList := by
    cases slot with
    | bind name => exact (words name member).opening_notMem
    | literal x =>
      rw [Slot.text, Binary64.text, String.toList_ofList]
      exact x.opening_notMem_chars
  clear words
  induction pattern with
  | nil => decide
  | cons slot slots ih =>
    have first := single List.mem_cons_self
    have rest := ih fun member => single (List.mem_cons_of_mem _ member)
    rcases slots with _ | ⟨next, others⟩
    · simpa [Pattern.text] using first
    · have shape : Pattern.text (slot :: next :: others) =
          slot.text ++ ", " ++ Pattern.text (next :: others) := String.intercalate_cons_cons
      rw [shape]
      simp only [String.toList_append, List.mem_append, not_or]
      exact ⟨⟨first, by decide⟩, rest⟩

theorem Answer.clauseAdded_eq_note {name other shown : String} {pattern : Pattern}
    (word : Token.IsWord name) (words : ∀ name, .bind name ∈ pattern → Token.IsWord name)
    (same : Answer.clauseAdded name pattern =
      .note ("<func " ++ other ++ "(" ++ shown ++ ") = ...>")) :
    other = name ∧ shown = pattern.text := by
  rw [Answer.clauseAdded, Answer.note.injEq, String.append_left_inj] at same
  have inner : name.toList ++ '(' :: pattern.text.toList = other.toList ++ '(' :: shown.toList := by
    simpa using congrArg String.toList same
  -- the left side has one parenthesis only, so both sides are cut at the same place
  obtain ⟨names, -, texts⟩ := (List.append_cons_inj_of_notMem word.opening_notMem
    (Pattern.opening_notMem_text words)).mp inner
  exact ⟨(String.toList_inj.mp names).symm, (String.toList_inj.mp texts).symm⟩

end Confirmation

namespace Interpreter

/-- A text with an answer was read as a statement that did what it says. -/
theorem feed_accomplished (interpreter : Interpreter σ) {text : String} {answer : Answer}
    (answered : (interpreter.feed text).1 = .ok answer) :
    ∃ frames statement, Statement.read frames text = .ok statement ∧
      Statement.Accomplished
        (Expr.evaluate interpreter.builtins (Statement.allowance frames statement))
        interpreter.counted.machine (interpreter.feed text).2.session statement answer := by
  obtain ⟨failure, fed⟩ | ⟨frames, statement, -, read, fed⟩ := interpreter.feed_cases text
  · rw [fed] at answered
    cases answered
  have undisturbed := Guarantee.evaluated_moves
    (Guarantee.evaluate_undisturbed interpreter.builtins (Statement.allowance frames statement))
    statement interpreter.counted.machine
  rcases performed : Statement.perform interpreter.builtins frames statement
    interpreter.counted.machine with ⟨failure | result, after⟩ <;>
    rw [performed] at fed <;> rw [fed] at answered ⊢ <;> cases answered
  rw [Statement.perform_eq_performWith] at performed
  exact ⟨frames, statement, read,
    Statement.performWith_accomplished undisturbed.untouched performed⟩

/-- A text that frames do not suffice to read is counted, and nothing else happens. -/
theorem feed_stackLimit (interpreter : Interpreter σ) {frames : Nat}
    (allowed : interpreter.limit.budget = .ok frames) {text : String}
    (read : Statement.read frames text = .error .stackLimit) :
    interpreter.feed text =
      (.error (.rejected (interpreter.count + 1) .stackLimit), interpreter.counted) := by
  have same : interpreter.counted.limit = interpreter.limit := rfl
  simp only [feed, same, allowed, run, read]
  rfl

/-- A text that is confirmed as a clause added one, and told its name and its pattern. -/
theorem exists_clause_of_confirmed (interpreter : Interpreter σ) {text name shown : String}
    (confirmed : (interpreter.feed text).1 =
      .ok (.note ("<func " ++ name ++ "(" ++ shown ++ ") = ...>"))) :
    ∃ pattern body, interpreter.session.GainsClause (interpreter.feed text).2.session name
        ⟨pattern, body⟩ ∧ shown = pattern.text ∧ Token.IsWord name ∧
      ∀ other, .bind other ∈ pattern → Token.IsWord other := by
  obtain ⟨frames, statement, read, accomplished⟩ := interpreter.feed_accomplished confirmed
  generalize told : Answer.note ("<func " ++ name ++ "(" ++ shown ++ ") = ...>") = answer
    at accomplished
  cases accomplished with
  | nothing =>
    have chars := congrArg String.toList (Answer.note.inj told)
    simp at chars
  | computed => cases told
  | constant =>
    have chars := congrArg String.toList (Answer.note.inj told)
    simp at chars
  | @clause added params body pos pattern middle slotted gained =>
    obtain ⟨word, named⟩ := Statement.isWord_of_read_clause read
    have words : ∀ other, .bind other ∈ pattern → Token.IsWord other := by
      intro other member
      obtain ⟨place, param⟩ := slotted.exists_var member
      exact named other place param
    obtain ⟨rfl, rfl⟩ := Answer.clauseAdded_eq_note word words told.symm
    -- counting touches neither scopes nor functions
    exact ⟨pattern, body, ⟨gained.function, gained.others, gained.environment⟩, rfl, word, words⟩

/-- The echo of a definition reproduces its pattern. A text that is confirmed as a clause added one
whose pattern is shown as in the confirmation. If the numbers in this pattern are of a magnitude
that is written out, then what is confirmed, with `let` before it and any expression for a body, is
a definition again: in any session that allows statements to run and the body to be read with one
frame less, which the definition spends, it is confirmed by the same text, and it adds a clause with
the same names and equal numbers in the same places, which accepts the same arguments and gives them
the same names. -/
theorem echo_reproduces_pattern (first : Interpreter σ) {text name shown : String}
    (confirmed : (first.feed text).1 =
      .ok (.note ("<func " ++ name ++ "(" ++ shown ++ ") = ...>"))) :
    ∃ pattern body,
      first.session.GainsClause (first.feed text).2.session name ⟨pattern, body⟩ ∧
      shown = pattern.text ∧
      ((∀ x, Slot.literal x ∈ pattern → x.WrittenOut) →
        ∀ (second : Interpreter τ) (frames : Nat) (bodyText : String) (expr : Expr),
          second.limit.budget = .ok (frames + 1) →
          Statement.read frames bodyText = .ok (some (.expression expr)) →
          let again := second.feed ("let " ++ name ++ "(" ++ shown ++ ") = " ++ bodyText)
          again.1 = (first.feed text).1 ∧
          ∃ reproduced distance,
            second.session.GainsClause again.2.session name ⟨reproduced, expr.shift distance⟩ ∧
            List.Forall₂ Slot.Alike pattern reproduced ∧
            ∀ args, Pattern.bind? reproduced args = pattern.bind? args) := by
  obtain ⟨pattern, body, gained, rfl, word, words⟩ := first.exists_clause_of_confirmed confirmed
  refine ⟨pattern, body, gained, rfl, ?_⟩
  intro written second frames bodyText expr allowed read again
  have writable : ∀ slot ∈ pattern, slot.Writable := by
    intro slot member
    cases slot with
    | bind name => exact words name member
    | literal x => exact written x member
  obtain ⟨answered, distance, added⟩ := second.feed_definition allowed word writable read
  have alike := Pattern.alike_map_dropZeroSign writable
  exact ⟨answered.trans confirmed.symm, _, distance, added, alike, Pattern.bind?_eq_of_alike alike⟩

end Interpreter

theorem Session.GainsClause.getLast?_clauses {before after : Session} {name : String}
    {clause : Clause} (gained : before.GainsClause after name clause) :
    (after.clauses name).getLast? = some clause := by
  simp [clauses, gained.function]

/-- A pattern of a negative half, a name and a negative zero is typed as it was confirmed, in a
session that has a clause of that name. The zero has lost its sign, which no argument can tell. -/
theorem signed_pattern_reproduced :
    let pattern : Pattern :=
      [.literal (Binary64.ofDecimal 5 (-1)).neg, .bind "x", .literal (.zero true)]
    let square : Expr := .binary .pow (.var "x" (some 0)) (.number (.ofInt 2) (some 4)) (some 2)
    (bareInterpreter.feed "let f(-1/2, x, -0) = x").1 = .ok (.note "<func f(-0.5, x, 0) = ...>") ∧
      (forgetfulSession.feed "let f(-0.5, x, 0) = x ^ 2").1 =
        .ok (.note "<func f(-0.5, x, 0) = ...>") ∧
      ∃ reproduced distance,
        forgetfulSession.session.GainsClause
          (forgetfulSession.feed "let f(-0.5, x, 0) = x ^ 2").2.session "f"
          ⟨reproduced, square.shift distance⟩ ∧
        List.Forall₂ Slot.Alike pattern reproduced ∧
        ∀ args, Pattern.bind? reproduced args = pattern.bind? args := by
  intro pattern square
  have confirmed : (bareInterpreter.feed "let f(-1/2, x, -0) = x").1 =
      .ok (.note ("<func " ++ "f" ++ "(" ++ "-0.5, x, 0" ++ ") = ...>")) := by decide +kernel
  have last : (((bareInterpreter.feed "let f(-1/2, x, -0) = x").2.session.clauses
      "f").getLast?).map Clause.pattern = some pattern := by decide +kernel
  have allowed : forgetfulSession.limit.budget = .ok 10000 := by decide +kernel
  have read : Statement.read 9999 "x ^ 2" = .ok (some (.expression square)) := by rfl
  obtain ⟨own, body, gained, -, reproduces⟩ :=
    @Interpreter.echo_reproduces_pattern Unit Unit bareInterpreter _ _ _ confirmed
  rw [gained.getLast?_clauses] at last
  obtain rfl : own = pattern := Option.some.inj last
  have written : ∀ slot ∈ pattern, ∀ x, slot = .literal x → x.WrittenOut := by
    refine List.forall_mem_cons.mpr ⟨?_, List.forall_mem_cons.mpr ⟨nofun,
      List.forall_mem_singleton.mpr ?_⟩⟩
    · intro x same
      rw [← Slot.literal.inj same]
      decide +kernel
    · intro x same
      rw [← Slot.literal.inj same]
      decide +kernel
  obtain ⟨answered, reproduction⟩ := reproduces (fun x member => written _ member x rfl)
    forgetfulSession 9999 "x ^ 2" square allowed read
  exact ⟨confirmed, answered.trans confirmed, reproduction⟩

theorem Statement.read_ofList (frames : Nat) (chars : List Char) :
    Statement.read frames (String.ofList chars) =
      Reader.whole frames (Source.scan ⟨chars, 0⟩) := by
  rw [Statement.read, Token.scan, Source.ofString, String.toList_ofList]

/-- A one in parentheses, of eleven frames each, behind minus signs, of one frame each, so that it
takes a thousand frames to read it. -/
def nestedOne : List Char :=
  List.replicate 10 '-' ++ List.replicate 89 '(' ++ '1' :: List.replicate 89 ')'

theorem exists_read_nestedOne :
    ∃ expr, Statement.read 1000 (String.ofList nestedOne) = .ok (some (.expression expr)) := by
  have parsed : (Reader.whole 1000 (Source.scan ⟨nestedOne, 0⟩)).toOption.join.isSome = true := by
    decide +kernel
  have opening : (Source.scan ⟨nestedOne, 0⟩).head?.map Token.kind = some .operator := by
    decide +kernel
  rw [← Statement.read_ofList] at parsed
  rcases outcome : Statement.read 1000 (String.ofList nestedOne) with failure | (_ | statement) <;>
    rw [outcome] at parsed
  · cases parsed
  · cases parsed
  -- what opens with a sign is no definition
  obtain ⟨body, ending, scanned, -, sentence⟩ := Statement.exists_sentence_of_read outcome
  rw [Token.scan, Source.ofString, String.toList_ofList] at scanned
  rw [scanned] at opening
  cases sentence with
  | clause opens => simp [opens.kind] at opening
  | constant opens => simp [opens.kind] at opening
  | @expression _ expr _ => exact ⟨expr, rfl⟩

theorem read_nestedOne_exhausts :
    Statement.read 1000 (String.ofList ("let f(x) = ".toList ++ nestedOne)) =
      .error .stackLimit := by
  have exhausted : (Reader.whole 1000 (Source.scan ⟨"let f(x) = ".toList ++ nestedOne, 0⟩)).map
      (fun _ => ()) = .error .stackLimit := by decide +kernel
  rw [← Statement.read_ofList] at exhausted
  generalize Statement.read 1000 _ = outcome at exhausted ⊢
  cases outcome with
  | error failure => exact congrArg _ (Except.error.inj exhausted)
  | ok statement => cases exhausted

/-- What is confirmed is not accepted under a limit that cannot be set, nor, under one that can be,
with a body that takes all the frames there are. -/
theorem confirmed_definition_refused :
    (¬∀ (first second : Interpreter Unit) (text name shown : String),
      (first.feed text).1 = .ok (.note ("<func " ++ name ++ "(" ++ shown ++ ") = ...>")) →
      ∃ pattern body,
        first.session.GainsClause (first.feed text).2.session name ⟨pattern, body⟩ ∧
        ((∀ x, Slot.literal x ∈ pattern → x.WrittenOut) →
          ∀ (frames : Nat) (bodyText : String) (expr : Expr),
            Statement.read frames bodyText = .ok (some (.expression expr)) →
            (second.feed ("let " ++ name ++ "(" ++ shown ++ ") = " ++ bodyText)).1 =
              (first.feed text).1)) ∧
      (bareInterpreter.feed "let f(x) = x").1 = .ok (.note "<func f(x) = ...>") ∧
      (∃ expr, Statement.read 1000 (String.ofList nestedOne) = .ok (some (.expression expr))) ∧
      ((bareInterpreter.withLimit (.frames 1000)).feed
        (String.ofList ("let f(x) = ".toList ++ nestedOne))).1 =
          .error (.rejected 1 .stackLimit) := by
  have confirmed : (bareInterpreter.feed "let f(x) = x").1 =
      .ok (.note ("<func " ++ "f" ++ "(" ++ "x" ++ ") = ...>")) := by decide +kernel
  refine ⟨?_, confirmed, exists_read_nestedOne, ?_⟩
  · intro accepted
    have last : (((bareInterpreter.feed "let f(x) = x").2.session.clauses "f").getLast?).map
        Clause.pattern = some [.bind "x"] := by decide +kernel
    obtain ⟨pattern, body, gained, again⟩ := accepted bareInterpreter
      (bareInterpreter.withLimit (.frames 2147483648)) _ _ _ confirmed
    rw [gained.getLast?_clauses] at last
    obtain rfl : pattern = [.bind "x"] := Option.some.inj last
    have fed := again (by simp) 40 "1" (.number (.ofInt 1) (some 0)) rfl
    have refused : ((bareInterpreter.withLimit (.frames 2147483648)).feed
        ("let " ++ "f" ++ "(" ++ "x" ++ ") = " ++ "1")).1 = .error (.internal .limitTooLarge) := by
      decide +kernel
    rw [confirmed, refused] at fed
    cases fed
  · rw [Interpreter.feed_stackLimit _ rfl read_nestedOne_exhausts]
    rfl

end Calculator

import Mathlib.Data.List.Forall2
import Calculator.Session.Clause
import Calculator.Proofs.Decimal.RoundTrip
import Calculator.Proofs.Statement.Composition

namespace Calculator

/-- The same slot with the sign of a zero dropped. -/
def Slot.dropZeroSign : Slot → Slot
  | .bind name => .bind name
  | .literal value => .literal value.dropZeroSign

namespace Grammar

/-- The tokens of a parameter that needs no evaluation, and the slot that it stands for: a name, a
number, or a number with a minus sign. -/
inductive Parameter : List Token → Slot → Prop where
  | name {token : Token} (kind : token.kind = .word) : Parameter [token] (.bind token.text)
  | number {token : Token} (kind : token.kind = .number) :
    Parameter [token] (.literal (Reader.literal token.text))
  | negative {minus token : Token} (sign : minus.Is .operator "-") (kind : token.kind = .number) :
    Parameter [minus, token] (.literal (Reader.literal token.text).neg)

/-- The tokens of one or more such parameters with commas between them. -/
inductive Parameters : List Token → Pattern → Prop where
  | last {tokens : List Token} {slot : Slot} : Parameter tokens slot → Parameters tokens [slot]
  | more {tokens rest : List Token} {comma : Token} {slot : Slot} {slots : Pattern} :
    Parameter tokens slot → comma.Is .punctuation "," → Parameters rest slots →
      Parameters (tokens ++ comma :: rest) (slot :: slots)

theorem Parameter.shift {tokens : List Token} {slot : Slot} (parameter : Parameter tokens slot)
    (distance : Nat) : Parameter (tokens.map (Token.shift distance)) slot := by
  cases parameter with
  | name kind => exact .name kind
  | number kind => exact .number kind
  | negative sign kind => exact .negative ⟨sign.kind, sign.text⟩ kind

theorem Parameters.shift {tokens : List Token} {slots : Pattern}
    (parameters : Parameters tokens slots) (distance : Nat) :
    Parameters (tokens.map (Token.shift distance)) slots := by
  induction parameters with
  | last only => exact .last (only.shift distance)
  | more first comma _ ih =>
    rw [List.map_append, List.map_cons]
    exact .more (first.shift distance) ⟨comma.kind, comma.text⟩ ih

theorem Parameters.length_le {tokens : List Token} {slots : Pattern}
    (parameters : Parameters tokens slots) : slots.length ≤ tokens.length := by
  have some {tokens : List Token} {slot : Slot} (parameter : Parameter tokens slot) :
      0 < tokens.length := by
    cases parameter <;> exact Nat.succ_pos _
  induction parameters with
  | last only => exact some only
  | more first _ _ ih =>
    have := some first
    simp only [List.length_append, List.length_cons]
    omega

theorem Parameters.exists_head {tokens : List Token} {slots : Pattern}
    (parameters : Parameters tokens slots) :
    ∃ token more, tokens = token :: more ∧ token.kind ≠ .punctuation := by
  have first {tokens : List Token} {slot : Slot} (parameter : Parameter tokens slot) :
      ∃ token more, tokens = token :: more ∧ token.kind ≠ .punctuation := by
    cases parameter with
    | name kind => exact ⟨_, _, rfl, by simp [kind]⟩
    | number kind => exact ⟨_, _, rfl, by simp [kind]⟩
    | negative sign _ => exact ⟨_, _, rfl, by simp [sign.kind]⟩
  cases parameters with
  | last only => exact first only
  | more lead _ _ =>
    obtain ⟨token, more, rfl, visible⟩ := first lead
    exact ⟨token, _, rfl, visible⟩

end Grammar

/-- An expression that is a slot as it stands. -/
inductive Expr.Plain : Expr → Slot → Prop where
  | name {name : String} {pos : Option Nat} : Plain (.var name pos) (.bind name)
  | number {value : Binary64} {pos : Option Nat} : Plain (.number value pos) (.literal value)
  | negative {value : Binary64} {pos signPos : Option Nat} :
    Plain (.unary .neg (.number value pos) signPos) (.literal value.neg)

namespace Reader

open Grammar (Parameter Parameters)

variable {size frames : Nat} {tokens rest : List Token}

theorem signed_word {token : Token} (word : token.kind = .word)
    (plain : (peek rest).text ≠ "(") :
    signed size (frames + 3) (token :: rest) = .ok (.var token.text (some token.pos), rest) := by
  have other : isOperator "-" token = false := by simp [isOperator, word]
  simp [signed, primary, peek_cons, other, word, plain]

/-- A parameter is read up to a mark with which it does not go on. -/
theorem sum_parameter {slot : Slot} (parameter : Parameter tokens slot) (size : Nat)
    (enough : 12 ≤ frames) {mark : Token} {text : String} (is : mark.Is .punctuation text)
    (apart : text ≠ "(") (rest : List Token) :
    ∃ expr, sum size frames (tokens ++ mark :: rest) = .ok (expr, mark :: rest) ∧
      expr.Plain slot := by
  obtain ⟨fewer, rfl⟩ : ∃ fewer, frames = fewer + 4 + 8 := ⟨frames - 12, by omega⟩
  have ended : (peek (mark :: rest)).kind ≠ .operator := by simp [is.kind]
  have plain : (peek (mark :: rest)).text ≠ "(" := by simpa [is.text] using apart
  cases parameter with
  | name kind => exact ⟨_, sum_of_signed (signed_word kind plain) ended, .name⟩
  | number kind => exact ⟨_, sum_of_signed (signed_number kind) ended, .number⟩
  | negative sign kind =>
    exact ⟨_, sum_of_signed (signed_minus (isOperator_iff.mpr sign) (signed_number kind)) ended,
      .negative⟩

theorem commaList_parameters {slots : Pattern} (parameters : Parameters tokens slots)
    {closing : Token} (closes : closing.Is .punctuation ")") (size : Nat) (enough : 12 ≤ frames)
    {rounds : Nat} (fits : slots.length ≤ rounds) (rest : List Token) :
    ∃ params, commaList (sum size frames) rounds (tokens ++ closing :: rest) =
        .ok (params, closing :: rest) ∧ List.Forall₂ Expr.Plain params slots := by
  induction parameters generalizing rounds with
  | last only =>
    obtain ⟨fewer, rfl⟩ := Nat.exists_eq_add_one.mpr (Nat.lt_of_lt_of_le Nat.one_pos fits)
    obtain ⟨expr, read, plain⟩ := sum_parameter only size enough closes (by decide) rest
    refine ⟨[expr], ?_, .cons plain .nil⟩
    simp [commaList, read, Outcome.andThen, closes.text]
  | @more tokens others comma slot slots first separates _ ih =>
    rw [List.length_cons] at fits
    obtain ⟨fewer, rfl⟩ : ∃ fewer, rounds = fewer + 1 := ⟨rounds - 1, by omega⟩
    have fewerFit : slots.length ≤ fewer := by omega
    obtain ⟨params, more, plains⟩ := ih fewerFit
    obtain ⟨expr, read, plain⟩ :=
      sum_parameter first size enough separates (by decide) (others ++ closing :: rest)
    refine ⟨expr :: params, ?_, .cons plain plains⟩
    rw [List.append_assoc, List.cons_append]
    simp [commaList, read, more, Outcome.andThen, separates.text]

/-- A list of parameters in parentheses is read, be it empty or not. -/
theorem arguments_parameters {slots : Pattern}
    (written : tokens = [] ∧ slots = [] ∨ Parameters tokens slots)
    (genuine : ∀ token ∈ tokens, token.Genuine) {opening closing : Token}
    (opens : opening.Is .punctuation "(") (closes : closing.Is .punctuation ")")
    (enough : 12 ≤ frames) (fits : slots.length ≤ size) (rest : List Token) :
    ∃ params, arguments size (frames + 1) (opening :: (tokens ++ closing :: rest)) =
        .ok (params, rest) ∧ List.Forall₂ Expr.Plain params slots := by
  obtain ⟨rfl, rfl⟩ | parameters := written
  · exact ⟨[], by simp [arguments, expect, opens.text, closes.text, Outcome.andThen], .nil⟩
  · obtain ⟨params, read, plains⟩ :=
      commaList_parameters parameters closes size enough fits rest
    refine ⟨params, ?_, plains⟩
    obtain ⟨first, more, rfl, visible⟩ := parameters.exists_head
    have filled : first.text ≠ ")" := fun closed =>
      visible (genuine first List.mem_cons_self |>.is_punctuation closed (by simp)).kind
    rw [List.cons_append] at read
    simp [arguments, expect, opens.text, closes.text, filled, read, Outcome.andThen]

theorem whole_clause {opening word equals ending : Token} {behind body : List Token}
    {params : List Expr} {expr : Expr} (room : (opening :: word :: behind).length = size)
    (opens : opening.Is .keyword "let") (kind : word.kind = .word)
    (listed : arguments size frames behind = .ok (params, equals :: body))
    (equated : equals.text = "=") (summed : sum size frames body = .ok (expr, [ending]))
    (ended : ending.kind = .eof) :
    whole (frames + 1) (opening :: word :: behind) =
      .ok (some (.clause word.text params expr (some opening.pos))) := by
  rw [whole, statement, room, peek_cons, if_neg (by simp [opens.kind]), if_pos opens.text]
  simp [clause, expect, expectKind, Outcome.andThen, opens.text, kind, listed, equated, summed,
    ended]

end Reader

namespace Token

def IsWord (text : String) : Prop :=
  body text = [⟨.word, text, 0⟩]

theorem isWord_of_mem {text : String} {token : Token} (member : token ∈ scan text)
    (kind : token.kind = .word) : IsWord token.text := by
  have alone := scan_text_of_mem token member (by simp [kind])
  rw [IsWord, body, alone, kind]
  rfl

theorem body_signedNumber {number : List Char} (shape : Shape .number number) (negative : Bool) :
    body (String.ofList (signChars negative ++ number)) =
      if negative then [⟨.operator, "-", 0⟩, ⟨.number, String.ofList number, 1⟩]
      else [⟨.number, String.ofList number, 0⟩] := by
  have single (pos : Nat) : Source.scan ⟨number, pos⟩ =
      [⟨.number, String.ofList number, pos⟩, ⟨.eof, "", pos + number.length⟩] := by
    have ended : ∀ c ∈ ([] : List Char).head?, isDigit c = false := by simp
    have scanned := Source.scan_number shape ended (by simp) pos
    rwa [List.append_nil, Source.scan_nil] at scanned
  rw [body, scan, Source.ofString, String.toList_ofList]
  cases negative with
  | false =>
    rw [signChars, if_neg (by decide), List.nil_append, single]
    rfl
  | true =>
    rw [signChars, if_pos rfl, List.singleton_append, Source.scan_minus, single]
    rfl

end Token

namespace Binary64

theorem isFinite_of_writtenOut {x : Binary64} (written : x.WrittenOut) : x.isFinite = true := by
  obtain zero | ⟨-, high⟩ := written
  · cases x with
    | nan => cases zero
    | infinity negative => cases zero
    | finite negative significand scale canonical => rfl
  · generalize ofDecimal 1 21 = bound at high
    cases x with
    | nan => cases high
    | infinity negative => cases bound <;> cases high
    | finite negative significand scale canonical => rfl

end Binary64

/-- A slot that can be typed as it is shown: a name that is a word, or a number that is written
out. -/
def Slot.Writable : Slot → Prop
  | .bind name => Token.IsWord name
  | .literal value => value.WrittenOut

namespace Grammar

theorem parameter_of_spelled {number : List Char} (shape : Token.Shape .number number)
    {x : Binary64} (value : Reader.literal (String.ofList number) = x.withSign false) :
    Parameter (Token.body (String.ofList (signChars x.isNegative ++ number))) (.literal x) := by
  have own := x.neg_withSign_false
  rw [← value] at own
  rw [Token.body_signedNumber shape]
  cases negative : x.isNegative with
  | false =>
    rw [negative, if_neg (by decide)] at own
    rw [if_neg (by decide), ← own]
    exact .number rfl
  | true =>
    rw [negative, if_pos rfl] at own
    rw [if_pos rfl, ← own]
    exact .negative ⟨rfl, rfl⟩ rfl

/-- A slot that can be typed has the tokens of a parameter. -/
theorem parameter_text {slot : Slot} (writable : slot.Writable) :
    Parameter (Token.body slot.text) slot.dropZeroSign := by
  cases slot with
  | bind name =>
    have single : Token.body name = [⟨.word, name, 0⟩] := writable
    rw [Slot.text, single]
    exact .name rfl
  | literal x =>
    have written : x.WrittenOut := writable
    have finite := Binary64.isFinite_of_writtenOut written
    simp only [Slot.text, Slot.dropZeroSign, Binary64.text, Binary64.dropZeroSign]
    cases zero : x.isZero with
    | true =>
      have value : Reader.literal "0" = .zero false := by decide +kernel
      rw [Binary64.chars_of_isZero finite zero, if_pos rfl, ← value]
      exact .number rfl
    | false =>
      obtain ⟨shape, value⟩ :=
        Decimal.spells_of_positional ((Binary64.positional_iff finite zero).mpr written)
      rw [Binary64.chars_of_ne_zero finite zero, if_neg (by decide)]
      exact parameter_of_spelled shape (value.trans (Decimal.shortest_toBinary64 finite))

/-- A pattern that can be typed has the tokens of its parameters. -/
theorem parameters_text {slots : Pattern} (some : slots ≠ [])
    (writable : ∀ slot ∈ slots, slot.Writable) :
    Parameters (Token.body slots.text) (slots.map Slot.dropZeroSign) := by
  induction slots with
  | nil => exact absurd rfl some
  | cons slot slots ih =>
    obtain ⟨first, rest⟩ := List.forall_mem_cons.mp writable
    have parameter := parameter_text first
    rcases slots with _ | ⟨next, others⟩
    · rw [Pattern.text, List.map_singleton, String.intercalate_singleton]
      exact .last parameter
    · have further := ih (by simp) rest
      have tokens : Token.body (slot.text ++ "," ++ (" " ++ Pattern.text (next :: others))) = _ :=
        Token.body_append_mark ',' (by decide) slot.text (" " ++ Pattern.text (next :: others))
      have blank : Token.body (" " ++ Pattern.text (next :: others)) = _ :=
        Token.body_append_blank "" (Pattern.text (next :: others))
      have shape : Pattern.text (slot :: next :: others) =
          slot.text ++ "," ++ (" " ++ Pattern.text (next :: others)) := by
        calc Pattern.text (slot :: next :: others)
            = slot.text ++ ("," ++ " ") ++ Pattern.text (next :: others) :=
              String.intercalate_cons_cons
          _ = _ := by simp only [String.append_assoc]
      rw [shape, tokens, blank, Token.body_empty, List.nil_append, Token.map_shift_shift]
      exact .more parameter ⟨rfl, rfl⟩ (further.shift _)

end Grammar

/-- A clause with a pattern and the text of a body, as it is typed. -/
def Pattern.definition (name : String) (slots : Pattern) (body : String) : String :=
  "let " ++ name ++ "(" ++ slots.text ++ ") = " ++ body

theorem Token.scan_definition {name : String} (word : IsWord name) (slots : Pattern)
    (text : String) :
    ∃ opened closed equated distance,
      scan (slots.definition name text) = ⟨.keyword, "let", 0⟩ :: ⟨.word, name, 4⟩ ::
        ⟨.punctuation, "(", opened⟩ :: ((body slots.text).map (shift (opened + 1)) ++
          ⟨.punctuation, ")", closed⟩ :: ⟨.punctuation, "=", equated⟩ ::
            (scan text).map (shift distance)) := by
  have front := body_let word
  have mark : body " =" = [⟨.punctuation, "=", 1⟩] := rfl
  have shape : slots.definition name text =
      "let " ++ name ++ "(" ++ slots.text ++ ")" ++ " =" ++ " " ++ text := by
    rw [Pattern.definition, show ") = " = ")" ++ " =" ++ " " from rfl]
    simp only [String.append_assoc]
  have split : scan ("let " ++ name ++ "(" ++ slots.text ++ ")" ++ " =" ++ " " ++ text) = _ :=
    scan_append_separator (c := ' ') (by decide)
      ("let " ++ name ++ "(" ++ slots.text ++ ")" ++ " =") text
  rw [shape, split, ← body, body_enclosed, front, mark, ofSeparator, if_pos (by decide),
    List.append_nil, enclosed]
  simp only [List.cons_append, List.append_assoc, List.nil_append, List.map_cons, List.map_nil]
  exact ⟨_, _, _, _, rfl⟩

/-- A definition whose pattern can be typed is read with one frame more than its body: its
parameters are the slots of the pattern, and its body is that of the text. -/
theorem Statement.read_definition {name : String} (word : Token.IsWord name) {slots : Pattern}
    (writable : ∀ slot ∈ slots, slot.Writable) {frames : Nat} (enough : 13 ≤ frames)
    {text : String} {expr : Expr}
    (read : Statement.read frames text = .ok (some (.expression expr))) :
    ∃ params distance,
      Statement.read (frames + 1) (slots.definition name text) =
        .ok (some (.clause name params (expr.shift distance) (some 0))) ∧
      List.Forall₂ Expr.Plain params (slots.map Slot.dropZeroSign) := by
  obtain ⟨opened, closed, equated, distance, scanned⟩ := Token.scan_definition word slots text
  have genuine := Token.scan_genuine (slots.definition name text)
  have written : ((Token.body slots.text).map (Token.shift (opened + 1)) = [] ∧
      slots.map Slot.dropZeroSign = []) ∨ Grammar.Parameters
        ((Token.body slots.text).map (Token.shift (opened + 1))) (slots.map Slot.dropZeroSign) := by
    by_cases none : slots = []
    · exact .inl (by rw [none]; exact ⟨rfl, rfl⟩)
    · exact .inr ((Grammar.parameters_text none writable).shift _)
  obtain ⟨size, room⟩ : ∃ size, (Token.scan (slots.definition name text)).length = size :=
    ⟨_, rfl⟩
  rw [scanned] at genuine room
  rw [Statement.read, scanned]
  generalize (Token.body slots.text).map (Token.shift (opened + 1)) = list
    at written genuine room ⊢
  have fits : (slots.map Slot.dropZeroSign).length ≤ list.length ∧
      list.length + (Token.scan text).length ≤ size := by
    constructor
    · obtain ⟨-, none⟩ | parameters := written
      · simp [none]
      · exact parameters.length_le
    · simp only [List.length_cons, List.length_append, List.length_map] at room
      omega
  have inside : ∀ token ∈ list, token.Genuine :=
    fun token member => genuine token (by simp [member])
  obtain ⟨fewer, rfl⟩ : ∃ fewer, frames = fewer + 1 := ⟨frames - 1, by omega⟩
  have opens : (⟨.punctuation, "(", opened⟩ : Token).Is .punctuation "(" := ⟨rfl, rfl⟩
  have closes : (⟨.punctuation, ")", closed⟩ : Token).Is .punctuation ")" := ⟨rfl, rfl⟩
  obtain ⟨params, listed, plains⟩ := Reader.arguments_parameters written inside opens closes
    (by omega : 12 ≤ fewer) (fits.1.trans (by omega) : _ ≤ size)
    (⟨.punctuation, "=", equated⟩ :: (Token.scan text).map (Token.shift distance))
  have summed := Reader.sum_shift_of_read read
    (by omega : (Token.scan text).length ≤ size) distance
  exact ⟨params, distance, Reader.whole_clause room ⟨rfl, rfl⟩ rfl listed rfl summed rfl, plains⟩

end Calculator

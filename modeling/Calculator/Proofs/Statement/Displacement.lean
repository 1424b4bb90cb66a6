import Calculator.Proofs.Statement.Locality
import Calculator.Proofs.Statement.Recognition
import Calculator.Proofs.Token.Separation

namespace Calculator

mutual

/-- The same tree, further on in a text. -/
def Expr.shift (distance : Nat) : Expr → Expr
  | .number value pos => .number value (pos.map (· + distance))
  | .var name pos => .var name (pos.map (· + distance))
  | .binary op left right pos =>
    .binary op (left.shift distance) (right.shift distance) (pos.map (· + distance))
  | .unary op operand pos => .unary op (operand.shift distance) (pos.map (· + distance))
  | .call name args pos => .call name (Expr.shiftAll distance args) (pos.map (· + distance))
  | .foreign kind pos => .foreign kind (pos.map (· + distance))

/-- The same trees, all as far on in a text. -/
def Expr.shiftAll (distance : Nat) : List Expr → List Expr
  | [] => []
  | expr :: rest => expr.shift distance :: Expr.shiftAll distance rest

end

namespace Reader

open Grammar
open Token (shift)

variable {α β : Type} {distance : Nat} {move : α → α}

/-- The second outcome is the first one of tokens that stand further on: what was read and the
tokens left are moved, a token of the same look is refused, or frames run out alike. -/
inductive Outcome.Moved (distance : Nat) (move : α → α) : Outcome α → Outcome α → Prop where
  | read (value : α) (rest : List Token) :
    Moved distance move (.ok (value, rest)) (.ok (move value, rest.map (shift distance)))
  | malformed {found other : Token} (expected : Expectation) :
    other.look = found.look →
      Moved distance move (.error (.malformed ⟨found, expected⟩))
        (.error (.malformed ⟨other, expected⟩))
  | stackLimit : Moved distance move (.error .stackLimit) (.error .stackLimit)

/-- The reader moves with its tokens. -/
def Moves (distance : Nat) (move : α → α) (reader : List Token → Outcome α) : Prop :=
  ∀ tokens, (reader tokens).Moved distance move (reader (tokens.map (shift distance)))

theorem Outcome.Moved.andThen {further : β → β} {outcome other : Outcome α}
    {next following : α → List Token → Outcome β} (first : outcome.Moved distance move other)
    (second : ∀ value rest, (next value rest).Moved distance further
      (following (move value) (rest.map (shift distance)))) :
    (outcome.andThen next).Moved distance further (other.andThen following) := by
  cases first with
  | read value rest => exact second value rest
  | malformed expected alike => exact .malformed expected alike
  | stackLimit => exact .stackLimit

theorem look_peek_map_shift (tokens : List Token) :
    (peek (tokens.map (shift distance))).look = (peek tokens).look := by
  cases tokens <;> rfl

theorem text_peek_map_shift (tokens : List Token) :
    (peek (tokens.map (shift distance))).text = (peek tokens).text :=
  congrArg Prod.snd (look_peek_map_shift tokens)

theorem reject_moves (expected : Expectation) : Moves distance move (reject expected) :=
  fun tokens => .malformed expected (look_peek_map_shift tokens)

/-- The token that is expected is left out of what is read. -/
theorem expect_moves (text : String) (tokens : List Token)
    {next following : List Token → Outcome α}
    (further : ∀ rest, (next rest).Moved distance move (following (rest.map (shift distance)))) :
    ((expect text tokens).andThen fun _ rest => next rest).Moved distance move
      ((expect text (tokens.map (shift distance))).andThen fun _ rest => following rest) := by
  rw [expect, expect, text_peek_map_shift, ← List.map_tail]
  split
  · exact further tokens.tail
  · exact .malformed _ (look_peek_map_shift tokens)

section Repetition

variable {item : List Token → Outcome Expr} (items : Moves distance (Expr.shift distance) item)

include items

theorem chain_moves {operator? : Token → Option BinaryOp}
    (alike : ∀ token, operator? (shift distance token) = operator? token)
    (ended : operator? (peek []) = none) (rounds : Nat) (left : Expr) (tokens : List Token) :
    (chain operator? item rounds left tokens).Moved distance (Expr.shift distance)
      (chain operator? item rounds (left.shift distance) (tokens.map (shift distance))) := by
  induction rounds generalizing left tokens with
  | zero => exact .read left tokens
  | succ rounds ih =>
    cases tokens with
    | nil =>
      rw [List.map_nil, chain_eq_of_none ended, chain_eq_of_none ended]
      exact .read left []
    | cons token rest =>
      rw [List.map_cons, chain, chain, peek_cons, peek_cons, alike]
      cases operator? token with
      | none => exact .read left (token :: rest)
      | some op =>
        apply (items rest).andThen
        intro right after
        exact ih (.binary op left right (some token.pos)) after

theorem commaList_moves (rounds : Nat) :
    Moves distance (Expr.shiftAll distance) (commaList item rounds) := by
  induction rounds with
  | zero => exact reject_moves _
  | succ rounds ih =>
    intro tokens
    apply (items tokens).andThen
    intro first rest
    rw [text_peek_map_shift, ← List.map_tail]
    split
    · apply (ih rest.tail).andThen
      intro more after
      exact .read (first :: more) after
    · exact .read [first] rest

end Repetition

section Levels

variable {size frames : Nat}

private theorem operands_moves {item : List Token → Outcome Expr}
    {operator? : Token → Option BinaryOp}
    (alike : ∀ token, operator? (shift distance token) = operator? token)
    (ended : operator? (peek []) = none) (items : Moves distance (Expr.shift distance) item) :
    Moves distance (Expr.shift distance)
      fun tokens => (item tokens).andThen (chain operator? item size) := by
  intro tokens
  apply (items tokens).andThen
  intro left rest
  exact chain_moves items alike ended size left rest

private theorem power_moves (bases : Moves distance (Expr.shift distance) (signed size frames))
    (exponents : Moves distance (Expr.shift distance) (power size (frames + 1))) :
    Moves distance (Expr.shift distance) (power size (frames + 2)) := by
  intro tokens
  apply (bases tokens).andThen
  intro left rest
  cases rest with
  | nil => exact .read left []
  | cons token rest =>
    have same : isOperator "^" (shift distance token) = isOperator "^" token := rfl
    rw [List.map_cons, peek_cons, peek_cons, same]
    split
    · apply (exponents rest).andThen
      intro right after
      exact .read (Expr.binary .pow left right (some token.pos)) after
    · exact .read left (token :: rest)

private theorem signed_moves (operands : Moves distance (Expr.shift distance) (signed size frames))
    (primaries : Moves distance (Expr.shift distance) (primary size frames)) :
    Moves distance (Expr.shift distance) (signed size (frames + 1)) := by
  intro tokens
  cases tokens with
  | nil => exact primaries []
  | cons token rest =>
    have same : isOperator "-" (shift distance token) = isOperator "-" token := rfl
    rw [List.map_cons, signed, signed, peek_cons, peek_cons, same]
    split
    · apply (operands rest).andThen
      intro operand after
      exact .read (Expr.unary .neg operand (some token.pos)) after
    · exact primaries (token :: rest)

private theorem primary_moves
    (lists : Moves distance (Expr.shiftAll distance) (arguments size frames))
    (sums : Moves distance (Expr.shift distance) (sum size frames)) :
    Moves distance (Expr.shift distance) (primary size (frames + 2)) := by
  intro tokens
  cases tokens with
  | nil => exact .malformed _ rfl
  | cons token rest =>
    have kind : (shift distance token).kind = token.kind := rfl
    have text : (shift distance token).text = token.text := rfl
    simp only [List.map_cons, primary, peek_cons, kind, text, List.tail_cons, text_peek_map_shift]
    split
    · exact .read (Expr.number (literal token.text) (some token.pos)) rest
    split
    · split
      · apply (lists rest).andThen
        intro args after
        exact .read (Expr.call token.text args (some token.pos)) after
      · exact .read (Expr.var token.text (some token.pos)) rest
    split
    · apply (sums rest).andThen
      intro inner after
      exact expect_moves ")" after fun last => .read inner last
    · exact reject_moves _ (token :: rest)

private theorem arguments_moves
    (sums : Moves distance (Expr.shift distance) (sum size frames)) :
    Moves distance (Expr.shiftAll distance) (arguments size (frames + 1)) := by
  intro tokens
  apply expect_moves "(" tokens
  intro rest
  rw [text_peek_map_shift, ← List.map_tail]
  split
  · exact .read [] rest.tail
  · apply (commaList_moves sums size rest).andThen
    intro args after
    exact expect_moves ")" after fun last => .read args last

/-- Every level moves with its tokens, as the readers that it calls do. -/
theorem read_moves (size : Nat) (level : Level) (frames distance : Nat) :
    Moves distance (Expr.shift distance) (read size level frames) := by
  induction frames using Nat.strongRecOn generalizing level with
  | ind frames ih =>
    have nothing {α : Type} {move : α → α} :
        Moves distance move fun _ => .error .stackLimit :=
      fun _ => .stackLimit
    match level, frames with
    | .sum, 0 | .sum, 1 | .sum, 2 => exact nothing
    | .product, 0 | .product, 1 | .product, 2 => exact nothing
    | .power, 0 | .power, 1 => exact nothing
    | .signed, 0 => exact nothing
    | .primary, 0 | .primary, 1 => exact nothing
    | .sum, frames + 3 =>
      exact operands_moves (fun _ => rfl) rfl (ih frames (by omega) .product)
    | .product, frames + 3 =>
      exact operands_moves (fun _ => rfl) rfl (ih frames (by omega) .power)
    | .power, frames + 2 =>
      exact power_moves (ih frames (by omega) .signed) (ih (frames + 1) (by omega) .power)
    | .signed, frames + 1 =>
      exact signed_moves (ih frames (by omega) .signed) (ih frames (by omega) .primary)
    | .primary, 2 => exact primary_moves nothing nothing
    | .primary, frames + 3 =>
      exact primary_moves (arguments_moves (ih frames (by omega) .sum))
        (ih (frames + 1) (by omega) .sum)

end Levels

/-- What is read is read alike when there is room for more tokens. -/
theorem sum_eq_of_room {size room frames : Nat} {tokens rest : List Token} {expr : Expr}
    (genuine : ∀ token ∈ tokens, token.Genuine) (few : tokens.length ≤ size)
    (fits : tokens.length ≤ room) (read : sum size frames tokens = .ok (expr, rest)) :
    sum room frames tokens = .ok (expr, rest) := by
  have settles := read_settles size (fun _ : Unit => room) .sum (fun _ => Nat.le_refl frames)
  simp only [Reader.read] at settles
  obtain ⟨taken, others, rfl, stops, again⟩ := settles tokens genuine few (by simp [read])
  have larger := again () others rfl fits
  rw [read] at stops larger
  cases stops
  exact larger

section Text

variable {frames : Nat} {text : String} {expr : Expr}
  (read : Statement.read frames text = .ok (some (.expression expr)))

include read

/-- A text that is read as an expression is taken whole as a sum, however many tokens there is room
for. -/
theorem sum_of_read {size : Nat} (fits : (Token.scan text).length ≤ size) :
    sum size frames (Token.scan text) = .ok (expr, [⟨.eof, "", text.length⟩]) := by
  have genuine := Token.scan_genuine text
  apply sum_eq_of_room genuine (Nat.le_refl _) fits
  obtain ⟨tokens, ending, scanned, last, sentence⟩ := Statement.exists_sentence_of_read read
  have ended := (List.append_inj' (scanned.symm.trans (Token.scan_eq_body text)) rfl).2
  rw [← ended]
  rw [Statement.read] at read
  rw [scanned] at read genuine ⊢
  cases sentence with
  | expression derived =>
    have shorter : tokens.length ≤ (tokens ++ [ending]).length := by simp
    have ends : Level.sum.EndsAt (peek [ending]) :=
      .of_kind (by simp [last]) fun call => absurd (last.symm.trans call.kind) (by decide)
    rcases derived.yields frames genuine shorter ends with limited | yields
    · rw [Reader.read] at limited
      rw [whole, statement, if_neg (derived.text_ne_keyword genuine (by simp)),
        if_neg (derived.text_ne_keyword genuine (by simp)), limited] at read
      split at read <;> cases read
    · exact yields

theorem sum_shift_of_read {size : Nat} (fits : (Token.scan text).length ≤ size) (distance : Nat) :
    sum size frames ((Token.scan text).map (shift distance)) =
      .ok (expr.shift distance, [⟨.eof, "", text.length + distance⟩]) := by
  have moved := read_moves size .sum frames distance (Token.scan text)
  simp only [Reader.read, sum_of_read read fits] at moved
  generalize sum size frames ((Token.scan text).map (shift distance)) = outcome at moved ⊢
  cases moved
  rfl

theorem derives_shift_of_read (distance : Nat) :
    Derives .sum ((Token.body text).map (shift distance)) (expr.shift distance) := by
  have genuine : ∀ token ∈ (Token.scan text).map (shift distance), token.Genuine :=
    List.forall_mem_map.mpr fun token member =>
      ⟨(Token.scan_genuine text token member).keyword,
        (Token.scan_genuine text token member).punctuation⟩
  obtain ⟨taken, split, derived⟩ := read_sound frames .sum _ genuine _ _
    (sum_shift_of_read read (Nat.le_refl _) distance)
  rw [Token.scan_eq_body, List.map_append] at split
  rwa [(List.append_inj' split rfl).1]

end Text

end Reader

end Calculator

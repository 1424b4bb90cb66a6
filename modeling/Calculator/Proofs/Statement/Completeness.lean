import Calculator.Proofs.Statement.Soundness
import Calculator.Proofs.Statement.Unambiguity

namespace Calculator

namespace Reader

open Grammar

variable {α β : Type} {size : Nat}

/-- The outcome is what it should be, if frames did not run out. -/
def Outcome.Yields (outcome : Outcome α) (value : α) (rest : List Token) : Prop :=
  outcome = .error .stackLimit ∨ outcome = .ok (value, rest)

theorem Outcome.Yields.andThen {outcome : Outcome α} {value : α} {rest after : List Token}
    {next : α → List Token → Outcome β} {result : β} (first : outcome.Yields value rest)
    (second : (next value rest).Yields result after) :
    (outcome.andThen next).Yields result after := by
  rcases first with rfl | rfl
  · exact .inl rfl
  · exact second

theorem expect_yields {token : Token} {text : String} (same : token.text = text)
    (rest : List Token) : (expect text (token :: rest)).Yields token rest :=
  .inr (by simp [expect, same])

theorem expectKind_yields {token : Token} {kind : Token.Kind} (same : token.kind = kind)
    (rest : List Token) : (expectKind kind (token :: rest)).Yields token rest :=
  .inr (by simp [expectKind, same])

theorem peek_genuine {tokens : List Token} (genuine : ∀ token ∈ tokens, token.Genuine) :
    (peek tokens).Genuine := by
  cases tokens with
  | nil => constructor <;> simp [peek]
  | cons token rest => exact genuine token List.mem_cons_self

section Steps

variable {frames : Nat} {tokens middle rest : List Token} {token : Token} {left right expr : Expr}

private theorem sum_yields (first : ∀ frames, (product size frames tokens).Yields left middle)
    (further : ∀ frames,
      (chain sumOperator? (product size frames) size left middle).Yields expr rest) :
    (sum size frames tokens).Yields expr rest := by
  match frames with
  | 0 | 1 | 2 => exact .inl rfl
  | frames + 3 => exact (first frames).andThen (further frames)

private theorem product_yields (first : ∀ frames, (power size frames tokens).Yields left middle)
    (further : ∀ frames,
      (chain productOperator? (power size frames) size left middle).Yields expr rest) :
    (product size frames tokens).Yields expr rest := by
  match frames with
  | 0 | 1 | 2 => exact .inl rfl
  | frames + 3 => exact (first frames).andThen (further frames)

private theorem power_yields_operand
    (first : ∀ frames, (signed size frames tokens).Yields expr rest)
    (ends : Level.power.EndsAt (peek rest)) : (power size frames tokens).Yields expr rest := by
  match frames with
  | 0 | 1 => exact .inl rfl
  | frames + 2 =>
    apply (first frames).andThen
    have unraised : ¬isOperator "^" (peek rest) = true :=
      mt isOperator_iff.mp (ends.operator .pow (by decide))
    rw [if_neg unraised]
    exact .inr rfl

private theorem power_yields_raised
    (base : ∀ frames, (signed size frames tokens).Yields left (token :: middle))
    (sign : token.Is .operator "^")
    (exponent : ∀ frames, (power size frames middle).Yields right rest) :
    (power size frames tokens).Yields (.binary .pow left right (some token.pos)) rest := by
  match frames with
  | 0 | 1 => exact .inl rfl
  | frames + 2 =>
    apply (base frames).andThen
    rw [peek_cons, if_pos (isOperator_iff.mpr sign)]
    exact (exponent (frames + 1)).andThen (.inr rfl)

private theorem signed_yields_negated (sign : token.Is .operator "-")
    (operand : ∀ frames, (signed size frames middle).Yields expr rest) :
    (signed size frames (token :: middle)).Yields (.unary .neg expr (some token.pos)) rest := by
  match frames with
  | 0 => exact .inl rfl
  | frames + 1 =>
    rw [signed, peek_cons, if_pos (isOperator_iff.mpr sign)]
    exact (operand frames).andThen (.inr rfl)

private theorem signed_yields_unsigned (other : (peek tokens).kind ≠ .operator)
    (first : ∀ frames, (primary size frames tokens).Yields expr rest) :
    (signed size frames tokens).Yields expr rest := by
  match frames with
  | 0 => exact .inl rfl
  | frames + 1 =>
    have unsigned : ¬isOperator "-" (peek tokens) = true :=
      fun negated => other (isOperator_iff.mp negated).kind
    rw [signed, if_neg unsigned]
    exact first frames

private theorem primary_yields_number (kind : token.kind = .number) :
    (primary size frames (token :: rest)).Yields
      (.number (literal token.text) (some token.pos)) rest := by
  match frames with
  | 0 | 1 => exact .inl rfl
  | frames + 2 => exact .inr (by simp [primary, kind])

private theorem primary_yields_call (kind : token.kind = .word) (called : (peek middle).text = "(")
    {args : List Expr} (list : ∀ frames, (arguments size frames middle).Yields args rest) :
    (primary size frames (token :: middle)).Yields (.call token.text args (some token.pos))
      rest := by
  match frames with
  | 0 | 1 => exact .inl rfl
  | frames + 2 =>
    simp only [primary, peek_cons, kind, reduceCtorEq, if_false, if_true, List.tail_cons, called]
    exact (list frames).andThen (.inr rfl)

private theorem primary_yields_name (kind : token.kind = .word)
    (uncalled : (peek rest).text ≠ "(") :
    (primary size frames (token :: rest)).Yields (.var token.text (some token.pos)) rest := by
  match frames with
  | 0 | 1 => exact .inl rfl
  | frames + 2 => exact .inr (by simp [primary, kind, uncalled])

private theorem primary_yields_grouped {closing : Token} (opening : token.Is .punctuation "(")
    (inner : ∀ frames, (sum size frames middle).Yields expr (closing :: rest))
    (closed : closing.text = ")") : (primary size frames (token :: middle)).Yields expr rest := by
  match frames with
  | 0 | 1 => exact .inl rfl
  | frames + 2 =>
    simp only [primary, peek_cons, opening.kind, opening.text, reduceCtorEq, if_false, if_true,
      List.tail_cons]
    exact (inner frames).andThen ((expect_yields closed rest).andThen (.inr rfl))

private theorem arguments_yields_none {closing : Token} (opened : token.text = "(")
    (closed : closing.text = ")") :
    (arguments size frames (token :: closing :: rest)).Yields [] rest := by
  match frames with
  | 0 => exact .inl rfl
  | frames + 1 =>
    apply (expect_yields opened (closing :: rest)).andThen
    rw [peek_cons, if_pos closed]
    exact .inr rfl

private theorem arguments_yields_some {closing : Token} {args : List Expr}
    (opened : token.text = "(") (filled : (peek middle).text ≠ ")")
    (items : ∀ frames, (commaList (sum size frames) size middle).Yields args (closing :: rest))
    (closed : closing.text = ")") : (arguments size frames (token :: middle)).Yields args rest := by
  match frames with
  | 0 => exact .inl rfl
  | frames + 1 =>
    apply (expect_yields opened middle).andThen
    rw [if_neg filled]
    exact (items frames).andThen ((expect_yields closed rest).andThen (.inr rfl))

end Steps

end Reader

namespace Grammar

open Reader

variable {size : Nat}

theorem Derives.length_pos {level : Level} {tokens : List Token} {expr : Expr}
    (derivation : Derives level tokens expr) : 0 < tokens.length := by
  obtain ⟨token, rest, rfl, -⟩ := derivation.opens
  exact Nat.succ_pos _

theorem Derives.kind_ne_operator {tokens : List Token} {expr : Expr}
    (derivation : Derives .primary tokens expr) (rest : List Token) :
    (peek (tokens ++ rest)).kind ≠ .operator := by
  obtain ⟨token, more, rfl, other⟩ := derivation.primary_opens
  exact other

theorem Arguments.text_opening {tokens : List Token} {args : List Expr}
    (list : Arguments tokens args) (rest : List Token) : (peek (tokens ++ rest)).text = "(" := by
  obtain ⟨token, more, rfl, opening⟩ := list.opens
  exact opening.text

/-- Of genuine tokens no argument starts with a text that closes the list. -/
theorem Items.text_ne_closing {tokens rest : List Token} {exprs : List Expr}
    (items : Items tokens exprs) (genuine : ∀ token ∈ tokens ++ rest, token.Genuine) :
    (peek (tokens ++ rest)).text ≠ ")" := by
  obtain ⟨token, more, rfl, opens⟩ := items.opens
  intro closed
  have head := genuine token List.mem_cons_self
  exact opens.not_closing (head.is_punctuation closed (by simp))

mutual

theorem Derives.yields {level : Level} {tokens : List Token} {expr : Expr} {rest : List Token}
    (frames : Nat) (genuine : ∀ token ∈ tokens ++ rest, token.Genuine)
    (fits : tokens.length ≤ size) (ends : level.EndsAt (peek rest)) :
    Derives level tokens expr → (read size level frames (tokens ++ rest)).Yields expr rest
  | .sum first joined => by
    rw [List.length_append] at fits
    rw [List.append_assoc] at genuine ⊢
    have further := (List.forall_mem_append.mp genuine).2
    exact sum_yields
      (fun frames => first.yields frames genuine (by omega) (joined.endsAt ends))
      (fun frames => joined.yields frames size (fun _ _ => sumOperator?_eq_some_iff) further
        (by omega) (by omega) ends)
  | .product first joined => by
    rw [List.length_append] at fits
    rw [List.append_assoc] at genuine ⊢
    have further := (List.forall_mem_append.mp genuine).2
    exact product_yields
      (fun frames => first.yields frames genuine (by omega) (joined.endsAt ends))
      (fun frames => joined.yields frames size (fun _ _ => productOperator?_eq_some_iff) further
        (by omega) (by omega) ends)
  | .operand signed =>
    power_yields_operand (fun frames => signed.yields frames genuine fits
      (ends.mono Level.power.absorbed_tighter)) ends
  | .raised base sign exponent => by
    rw [List.length_append, List.length_cons] at fits
    rw [List.append_assoc] at genuine ⊢
    have further := (List.forall_mem_cons.mp (List.forall_mem_append.mp genuine).2).2
    exact power_yields_raised
      (fun frames => base.yields frames genuine (by omega) (.of_operator sign (by decide))) sign
      (fun frames => exponent.yields frames further (by omega) ends)
  | .negated sign operand =>
    signed_yields_negated sign fun frames =>
      operand.yields frames (List.forall_mem_cons.mp genuine).2 (Nat.le_of_succ_le fits) ends
  | .unsigned primary => by
    exact signed_yields_unsigned (primary.kind_ne_operator rest) fun frames =>
      primary.yields frames genuine fits (ends.mono Level.signed.absorbed_tighter)
  | .number kind => primary_yields_number kind
  | .call kind args => by
    exact primary_yields_call kind (args.text_opening rest) fun frames =>
      args.yields frames (List.forall_mem_cons.mp genuine).2 (Nat.le_of_succ_le fits)
  | .name kind => by
    have behind := peek_genuine (List.forall_mem_cons.mp genuine).2
    exact primary_yields_name kind fun called => ends.call (behind.is_punctuation called (by simp))
  | .grouped opening inner closing => by
    rw [List.length_cons, List.length_append] at fits
    rw [List.cons_append, List.append_assoc] at genuine ⊢
    have behind := (List.forall_mem_cons.mp genuine).2
    exact primary_yields_grouped opening
      (fun frames => inner.yields frames behind (by omega) (.punctuation closing (by decide)))
      closing.text
termination_by structural derivation => derivation

theorem Joined.yields {level : Level} {left expr : Expr} {tokens rest : List Token}
    (frames rounds : Nat) {operator? : Token → Option BinaryOp}
    (operators : ∀ token op, operator? token = some op ↔
      op ∈ level.operators ∧ token.Is .operator op.symbol)
    (genuine : ∀ token ∈ tokens ++ rest, token.Genuine) (fits : tokens.length ≤ size)
    (enough : tokens.length ≤ rounds) (ends : level.EndsAt (peek rest)) :
    Joined level left tokens expr →
      (chain operator? (read size level.tighter frames) rounds left (tokens ++ rest)).Yields expr
        rest
  | .done => by
    have nothing : operator? (peek rest) = none := by
      rw [Option.eq_none_iff_forall_ne_some]
      intro op found
      obtain ⟨member, sign⟩ := (operators _ op).mp found
      exact ends.operator op (level.absorbed_of_operators op member) sign
    cases rounds with
    | zero => exact .inr rfl
    | succ rounds => exact .inr (by simp [chain, nothing])
  | .join member sign operand joined => by
    rw [List.length_cons, List.length_append] at fits enough
    rw [List.cons_append, List.append_assoc] at genuine ⊢
    have behind := (List.forall_mem_cons.mp genuine).2
    obtain ⟨rounds, rfl⟩ := Nat.exists_eq_add_one.mpr (Nat.lt_of_lt_of_le (Nat.succ_pos _) enough)
    rw [chain, peek_cons, (operators _ _).mpr ⟨member, sign⟩]
    apply (operand.yields frames behind (by omega) (joined.endsAt ends)).andThen
    exact joined.yields frames rounds operators (List.forall_mem_append.mp behind).2 (by omega)
      (by omega) ends
termination_by structural derivation => derivation

theorem Arguments.yields {tokens rest : List Token} {args : List Expr} (frames : Nat)
    (genuine : ∀ token ∈ tokens ++ rest, token.Genuine) (fits : tokens.length ≤ size) :
    Arguments tokens args → (arguments size frames (tokens ++ rest)).Yields args rest
  | .none opening closing => arguments_yields_none opening.text closing.text
  | .some opening items closing => by
    rw [List.length_cons, List.length_append] at fits
    rw [List.cons_append, List.append_assoc] at genuine ⊢
    have behind := (List.forall_mem_cons.mp genuine).2
    have filled := items.text_ne_closing behind
    exact arguments_yields_some opening.text filled
      (fun frames => items.yields frames size behind (by omega) (by omega) closing) closing.text
termination_by structural derivation => derivation

theorem Items.yields {tokens rest : List Token} {exprs : List Expr} (frames rounds : Nat)
    (genuine : ∀ token ∈ tokens ++ rest, token.Genuine) (fits : tokens.length ≤ size)
    (enough : tokens.length ≤ rounds) (closing : (peek rest).Is .punctuation ")") :
    Items tokens exprs →
      (commaList (sum size frames) rounds (tokens ++ rest)).Yields exprs rest
  | .last item => by
    obtain ⟨rounds, rfl⟩ := Nat.exists_eq_add_one.mpr (Nat.lt_of_lt_of_le item.length_pos enough)
    apply (item.yields frames genuine fits (.punctuation closing (by decide))).andThen
    rw [if_neg (by simp [closing.text])]
    exact .inr rfl
  | .more first comma items => by
    rw [List.length_append, List.length_cons] at fits enough
    rw [List.append_assoc] at genuine ⊢
    have behind := (List.forall_mem_cons.mp (List.forall_mem_append.mp genuine).2).2
    obtain ⟨rounds, rfl⟩ : ∃ fewer, rounds = fewer + 1 :=
      Nat.exists_eq_add_one.mpr (by omega)
    apply (first.yields frames genuine (by omega) (.punctuation comma (by decide))).andThen
    rw [List.cons_append, peek_cons, if_pos comma.text]
    exact (items.yields frames rounds behind (by omega) (by omega) closing).andThen (.inr rfl)
termination_by structural derivation => derivation

end

/-- Of genuine tokens no expression starts with the text of a keyword. -/
theorem Derives.text_ne_keyword {level : Level} {tokens rest : List Token} {expr : Expr}
    (derivation : Derives level tokens expr) (genuine : ∀ token ∈ tokens ++ rest, token.Genuine)
    {text : String} (keyword : text ∈ ["let", "const"]) : (peek (tokens ++ rest)).text ≠ text := by
  obtain ⟨token, more, rfl, opens⟩ := derivation.opens
  intro same
  have head := genuine token List.mem_cons_self
  exact opens.not_keyword text (head.is_keyword same keyword)

/-- Tokens that are a statement are read as that statement, unless frames run out. -/
theorem Sentence.yields {tokens rest : List Token} {result : Statement} (frames : Nat)
    (genuine : ∀ token ∈ tokens ++ rest, token.Genuine) (fits : tokens.length ≤ size)
    (ends : Level.sum.EndsAt (peek rest)) (sentence : Sentence tokens result) :
    (statement size frames (tokens ++ rest)).Yields result rest := by
  cases sentence with
  | clause opening name list equals body =>
    simp only [List.length_cons, List.length_append] at fits
    simp only [List.cons_append, List.append_assoc] at genuine ⊢
    have behind := (List.forall_mem_cons.mp (List.forall_mem_cons.mp genuine).2).2
    have after := (List.forall_mem_cons.mp (List.forall_mem_append.mp behind).2).2
    rw [statement, peek_cons, if_pos opening.text]
    obtain _ | frames := frames
    · exact .inl rfl
    apply (expect_yields opening.text _).andThen
    apply (expectKind_yields name _).andThen
    apply (list.yields frames behind (by omega)).andThen
    apply (expect_yields equals.text _).andThen
    exact (body.yields frames after (by omega) ends).andThen (.inr rfl)
  | constant opening name equals value =>
    simp only [List.length_cons] at fits
    simp only [List.cons_append] at genuine ⊢
    have after := (List.forall_mem_cons.mp
      (List.forall_mem_cons.mp (List.forall_mem_cons.mp genuine).2).2).2
    rw [statement, peek_cons, if_neg (by simp [opening.text]), if_pos opening.text]
    obtain _ | frames := frames
    · exact .inl rfl
    apply (expect_yields opening.text _).andThen
    apply (expectKind_yields name _).andThen
    apply (expect_yields equals.text _).andThen
    exact (value.yields frames after (by omega) ends).andThen (.inr rfl)
  | expression expr =>
    rw [statement, if_neg (expr.text_ne_keyword genuine (by simp)),
      if_neg (expr.text_ne_keyword genuine (by simp))]
    exact (expr.yields frames genuine fits ends).andThen (.inr rfl)

end Grammar

end Calculator

import Calculator.Proofs.Statement.Terminals

namespace Calculator.Reader

open Grammar

variable {α : Type} {size : Nat}

/-- What the reader returns is derived from the tokens that it takes. -/
def Sound (Derived : List Token → α → Prop) (reader : List Token → Outcome α) : Prop :=
  ∀ tokens, (∀ token ∈ tokens, token.Genuine) → ∀ value rest, reader tokens = .ok (value, rest) →
    ∃ taken, tokens = taken ++ rest ∧ Derived taken value

/-- Each round joins one operand; without an operator, or a round, nothing more is joined. -/
theorem chain_sound (level : Level) {operator? : Token → Option BinaryOp}
    (operators : ∀ token op, operator? token = some op →
      op ∈ level.operators ∧ token.Is .operator op.symbol)
    {operand : List Token → Outcome Expr} (sound : Sound (Derives level.tighter) operand)
    (rounds : Nat) (left : Expr) :
    Sound (Joined level left) (chain operator? operand rounds left) := by
  induction rounds generalizing left with
  | zero =>
    intro tokens genuine expr rest read
    cases read
    exact ⟨[], rfl, .done⟩
  | succ rounds ih =>
    intro tokens genuine expr rest read
    rw [chain] at read
    cases next : operator? (peek tokens) with
    | none =>
      rw [next] at read
      cases read
      exact ⟨[], rfl, .done⟩
    | some op =>
      obtain ⟨member, sign⟩ := operators _ op next
      obtain ⟨token, after, rfl⟩ := exists_cons_of_kind sign.kind (by decide)
      rw [next] at read
      obtain ⟨right, middle, first, further⟩ := Outcome.andThen_eq_ok_iff.mp read
      have behind := (List.forall_mem_cons.mp genuine).2
      obtain ⟨taken, rfl, derived⟩ := sound after behind right middle first
      obtain ⟨more, rfl, joined⟩ :=
        ih _ middle (List.forall_mem_append.mp behind).2 expr rest further
      exact ⟨token :: (taken ++ more), by simp, .join member sign derived joined⟩

theorem commaList_sound {item : List Token → Outcome Expr} (sound : Sound (Derives .sum) item)
    (rounds : Nat) : Sound Items (commaList item rounds) := by
  induction rounds with
  | zero =>
    intro tokens genuine exprs rest read
    cases read
  | succ rounds ih =>
    intro tokens genuine exprs rest read
    rw [commaList, Outcome.andThen_eq_ok_iff] at read
    obtain ⟨first, middle, read, further⟩ := read
    obtain ⟨taken, rfl, derived⟩ := sound tokens genuine first middle read
    have behind := (List.forall_mem_append.mp genuine).2
    by_cases comma : (peek middle).text = ","
    · obtain ⟨token, after, rfl⟩ := exists_cons_of_text comma (by decide)
      simp only [comma, if_true, Outcome.andThen_eq_ok_iff, List.tail_cons] at further
      obtain ⟨others, last, listed, ended⟩ := further
      cases ended
      obtain ⟨head, behind⟩ := List.forall_mem_cons.mp behind
      obtain ⟨more, rfl, items⟩ := ih after behind others _ listed
      have mark := head.is_punctuation comma (by simp)
      exact ⟨taken ++ token :: more, by simp, .more derived mark items⟩
    · simp only [comma, if_false] at further
      cases further
      exact ⟨taken, rfl, .last derived⟩

theorem arguments_sound {frames : Nat} (sound : Sound (Derives .sum) (sum size frames)) :
    Sound Arguments (arguments size (frames + 1)) := by
  intro tokens genuine args rest read
  rw [arguments, Outcome.andThen_eq_ok_iff] at read
  obtain ⟨opening, after, opened, listed⟩ := read
  obtain ⟨rfl, parenthesis⟩ := (expect_eq_ok_iff (by decide)).mp opened
  obtain ⟨head, behind⟩ := List.forall_mem_cons.mp genuine
  have opens := head.is_punctuation parenthesis (by simp)
  by_cases empty : (peek after).text = ")"
  · obtain ⟨closing, last, rfl⟩ := exists_cons_of_text empty (by decide)
    simp only [empty, if_true] at listed
    cases listed
    have closes := (behind closing List.mem_cons_self).is_punctuation empty (by simp)
    exact ⟨[opening, closing], rfl, .none opens closes⟩
  · simp only [empty, if_false, Outcome.andThen_eq_ok_iff] at listed
    obtain ⟨items, middle, read, closing, last, closed, ended⟩ := listed
    cases ended
    obtain ⟨taken, rfl, derived⟩ := commaList_sound sound size after behind _ _ read
    obtain ⟨rfl, parenthesis⟩ := (expect_eq_ok_iff (by decide)).mp closed
    have closes := (behind closing (by simp)).is_punctuation parenthesis (by simp)
    exact ⟨opening :: (taken ++ [closing]), by simp, .some opens derived closes⟩

section Levels

variable {frames : Nat}

private theorem operands_sound (level : Level) {operator? : Token → Option BinaryOp}
    (operators : ∀ token op, operator? token = some op →
      op ∈ level.operators ∧ token.Is .operator op.symbol)
    {operand : List Token → Outcome Expr} (sound : Sound (Derives level.tighter) operand)
    (joins : ∀ {first rest left expr}, Derives level.tighter first left →
      Joined level left rest expr → Derives level (first ++ rest) expr) :
    Sound (Derives level) fun tokens =>
      (operand tokens).andThen (chain operator? operand size) := by
  intro tokens genuine expr rest found
  obtain ⟨left, middle, first, further⟩ := Outcome.andThen_eq_ok_iff.mp found
  obtain ⟨taken, rfl, derived⟩ := sound tokens genuine left middle first
  obtain ⟨more, rfl, joined⟩ := chain_sound level operators sound size left middle
    (List.forall_mem_append.mp genuine).2 expr rest further
  exact ⟨taken ++ more, by simp, joins derived joined⟩

private theorem power_sound (bases : Sound (Derives .signed) (signed size frames))
    (exponents : Sound (Derives .power) (power size (frames + 1))) :
    Sound (Derives .power) (power size (frames + 2)) := by
  intro tokens genuine expr rest found
  obtain ⟨left, middle, first, further⟩ := Outcome.andThen_eq_ok_iff.mp found
  obtain ⟨taken, rfl, derived⟩ := bases tokens genuine left middle first
  by_cases raised : isOperator "^" (peek middle) = true
  · have sign := isOperator_iff.mp raised
    obtain ⟨token, after, rfl⟩ := exists_cons_of_kind sign.kind (by decide)
    simp only [raised, if_true, Outcome.andThen_eq_ok_iff, List.tail_cons] at further
    obtain ⟨right, last, second, ended⟩ := further
    cases ended
    have behind := (List.forall_mem_cons.mp (List.forall_mem_append.mp genuine).2).2
    obtain ⟨more, rfl, exponent⟩ := exponents after behind right _ second
    exact ⟨taken ++ token :: more, by simp, .raised derived sign exponent⟩
  · simp only [raised] at further
    cases further
    exact ⟨taken, rfl, .operand derived⟩

private theorem signed_sound (operands : Sound (Derives .signed) (signed size frames))
    (primaries : Sound (Derives .primary) (primary size frames)) :
    Sound (Derives .signed) (signed size (frames + 1)) := by
  intro tokens genuine expr rest found
  rw [signed] at found
  by_cases negated : isOperator "-" (peek tokens) = true
  · have sign := isOperator_iff.mp negated
    obtain ⟨token, after, rfl⟩ := exists_cons_of_kind sign.kind (by decide)
    simp only [negated, if_true, Outcome.andThen_eq_ok_iff, List.tail_cons] at found
    obtain ⟨operand, last, first, ended⟩ := found
    cases ended
    obtain ⟨taken, rfl, derived⟩ :=
      operands after (List.forall_mem_cons.mp genuine).2 operand _ first
    exact ⟨token :: taken, rfl, .negated sign derived⟩
  · rw [if_neg negated] at found
    obtain ⟨taken, rfl, derived⟩ := primaries tokens genuine expr rest found
    exact ⟨taken, rfl, .unsigned derived⟩

private theorem primary_sound (lists : Sound Arguments (arguments size frames))
    (sums : Sound (Derives .sum) (sum size frames)) :
    Sound (Derives .primary) (primary size (frames + 2)) := by
  intro tokens genuine expr rest found
  simp only [primary] at found
  by_cases number : (peek tokens).kind = .number
  · obtain ⟨token, after, rfl⟩ := exists_cons_of_kind number (by decide)
    rw [if_pos number] at found
    cases found
    exact ⟨[token], rfl, .number number⟩
  rw [if_neg number] at found
  by_cases word : (peek tokens).kind = .word
  · obtain ⟨token, after, rfl⟩ := exists_cons_of_kind word (by decide)
    rw [if_pos word] at found
    by_cases called : (peek after).text = "("
    · simp only [List.tail_cons, called, if_true, Outcome.andThen_eq_ok_iff] at found
      obtain ⟨args, last, listed, ended⟩ := found
      cases ended
      obtain ⟨taken, rfl, list⟩ := lists after (List.forall_mem_cons.mp genuine).2 args _ listed
      exact ⟨token :: taken, rfl, .call word list⟩
    · simp only [List.tail_cons, called, if_false] at found
      cases found
      exact ⟨[token], rfl, .name word⟩
  rw [if_neg word] at found
  by_cases opened : (peek tokens).text = "("
  · obtain ⟨opening, after, rfl⟩ := exists_cons_of_text opened (by decide)
    simp only [opened, if_true, Outcome.andThen_eq_ok_iff, List.tail_cons] at found
    obtain ⟨inner, middle, first, closing, last, closed, ended⟩ := found
    cases ended
    obtain ⟨head, behind⟩ := List.forall_mem_cons.mp genuine
    obtain ⟨taken, rfl, derived⟩ := sums after behind _ _ first
    obtain ⟨rfl, parenthesis⟩ := (expect_eq_ok_iff (by decide)).mp closed
    have opens := head.is_punctuation opened (by simp)
    have closes := (behind closing (by simp)).is_punctuation parenthesis (by simp)
    exact ⟨opening :: (taken ++ [closing]), by simp, .grouped opens derived closes⟩
  · rw [if_neg opened] at found
    cases found

/-- Every reader of a level is sound, as those that it calls with fewer frames are. -/
theorem read_sound (frames : Nat) (level : Level) :
    Sound (Derives level) (read size level frames) := by
  induction frames using Nat.strongRecOn generalizing level with
  | ind frames ih =>
    have nothing {α : Type} {Derived : List Token → α → Prop} :
        Sound Derived fun _ => .error .stackLimit := by
      intro tokens genuine value rest found
      cases found
    match level, frames with
    | .sum, 0 | .sum, 1 | .sum, 2 => exact nothing
    | .product, 0 | .product, 1 | .product, 2 => exact nothing
    | .power, 0 | .power, 1 => exact nothing
    | .signed, 0 => exact nothing
    | .primary, 0 | .primary, 1 => exact nothing
    | .sum, frames + 3 =>
      exact operands_sound .sum (fun _ _ => sumOperator?_eq_some_iff.mp)
        (ih frames (by omega) .product) .sum
    | .product, frames + 3 =>
      exact operands_sound .product (fun _ _ => productOperator?_eq_some_iff.mp)
        (ih frames (by omega) .power) .product
    | .power, frames + 2 =>
      exact power_sound (ih frames (by omega) .signed) (ih (frames + 1) (by omega) .power)
    | .signed, frames + 1 =>
      exact signed_sound (ih frames (by omega) .signed) (ih frames (by omega) .primary)
    | .primary, 2 => exact primary_sound nothing nothing
    | .primary, frames + 3 =>
      exact primary_sound (arguments_sound (ih frames (by omega) .sum))
        (ih (frames + 1) (by omega) .sum)

theorem list_sound (frames : Nat) : Sound Arguments (arguments size frames) := by
  cases frames with
  | zero =>
    intro tokens genuine args rest found
    cases found
  | succ frames => exact arguments_sound (read_sound frames .sum)

private theorem clause_sound : Sound Sentence (clause size frames) := by
  intro tokens genuine statement rest found
  obtain _ | frames := frames
  · cases found
  simp only [clause, Outcome.andThen_eq_ok_iff] at found
  obtain ⟨opening, tokens, opened, name, after, named, params, middle, listed, equals, behind,
    equated, body, last, read, ended⟩ := found
  cases ended
  obtain ⟨rfl, word⟩ := (expect_eq_ok_iff (by decide)).mp opened
  obtain ⟨rfl, kind⟩ := (expectKind_eq_ok_iff (by decide)).mp named
  obtain ⟨head, genuine⟩ := List.forall_mem_cons.mp genuine
  obtain ⟨-, genuine⟩ := List.forall_mem_cons.mp genuine
  obtain ⟨taken, rfl, list⟩ := list_sound frames after genuine params middle listed
  obtain ⟨rfl, mark⟩ := (expect_eq_ok_iff (by decide)).mp equated
  obtain ⟨sign, genuine⟩ := List.forall_mem_cons.mp (List.forall_mem_append.mp genuine).2
  obtain ⟨more, rfl, derived⟩ := read_sound frames .sum behind genuine body rest read
  refine ⟨opening :: name :: (taken ++ equals :: more), by simp, ?_⟩
  exact .clause (head.is_keyword word (by simp)) kind list (sign.is_punctuation mark (by simp))
    derived

private theorem constant_sound : Sound Sentence (constant size frames) := by
  intro tokens genuine statement rest found
  obtain _ | frames := frames
  · cases found
  simp only [constant, Outcome.andThen_eq_ok_iff] at found
  obtain ⟨opening, tokens, opened, name, after, named, equals, behind, equated, value, last, read,
    ended⟩ := found
  cases ended
  obtain ⟨rfl, word⟩ := (expect_eq_ok_iff (by decide)).mp opened
  obtain ⟨rfl, kind⟩ := (expectKind_eq_ok_iff (by decide)).mp named
  obtain ⟨rfl, mark⟩ := (expect_eq_ok_iff (by decide)).mp equated
  simp only [List.forall_mem_cons] at genuine
  obtain ⟨head, -, sign, genuine⟩ := genuine
  obtain ⟨more, rfl, derived⟩ := read_sound frames .sum behind genuine value rest read
  refine ⟨opening :: name :: equals :: more, rfl, ?_⟩
  exact .constant (head.is_keyword word (by simp)) kind (sign.is_punctuation mark (by simp)) derived

theorem statement_sound : Sound Sentence (statement size frames) := by
  intro tokens genuine result rest found
  rw [statement] at found
  split at found
  · exact clause_sound tokens genuine result rest found
  · split at found
    · exact constant_sound tokens genuine result rest found
    · obtain ⟨expr, last, read, ended⟩ := Outcome.andThen_eq_ok_iff.mp found
      cases ended
      obtain ⟨taken, split, derived⟩ := read_sound frames .sum tokens genuine expr rest read
      exact ⟨taken, split, .expression derived⟩

end Levels

end Calculator.Reader

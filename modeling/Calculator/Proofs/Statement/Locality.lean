import Calculator.Proofs.Statement.Lookahead

namespace Calculator.Reader

open Grammar

variable {α ι : Type}

section Levels

variable {size frames : Nat} {room others : ι → Nat}

private theorem operands_settles (level : Level) {operator? : Token → Option BinaryOp}
    (operators : ∀ token op, operator? token = some op →
      op ∈ level.operators ∧ token.Is .operator op.symbol)
    {operand : List Token → Outcome Expr} {another : ι → List Token → Outcome Expr}
    (operands : Settles (Derives level.tighter) size room operand another)
    (joins : ∀ {first rest left expr}, Derives level.tighter first left →
      Joined level left rest expr → Derives level (first ++ rest) expr) :
    Settles (Derives level) size room
      (fun tokens => (operand tokens).andThen (chain operator? operand size))
      (fun i tokens => (another i tokens).andThen (chain operator? (another i) (room i))) := by
  intro tokens genuine few
  refine Settled.andThen (operands tokens genuine few) ?_ ?_
  · intro taken left derived
    exact .of_derived (by simpa using joins derived .done)
  · rintro taken left rest rfl derived
    rw [List.length_append] at few
    have further := chain_settles level operators operands size room left (Nat.le_refl _)
      (fun _ => Nat.le_refl _) rest (List.forall_mem_append.mp genuine).2 (by omega)
    exact further.imp fun more expr joined => joins derived joined

private theorem power_settles
    (bases : Settles (Derives .signed) size room (signed size frames)
      (fun i => signed (room i) (others i)))
    (exponents : Settles (Derives .power) size room (power size (frames + 1))
      (fun i => power (room i) (others i + 1))) :
    Settles (Derives .power) size room (power size (frames + 2))
      (fun i => power (room i) (others i + 2)) := by
  intro tokens genuine few
  refine Settled.andThen (bases tokens genuine few)
    (fun taken left derived => .of_derived (.operand derived)) ?_
  rintro taken left middle rfl derived
  apply Settled.branch (fun token => isOperator "^" token = true)
  · intro raised
    have sign := isOperator_iff.mp raised
    obtain ⟨token, rest, rfl⟩ := exists_cons_of_kind sign.kind (by decide)
    rw [peek_cons] at sign
    rw [List.length_append] at few
    have further := exponents.tail (List.forall_mem_append.mp genuine).2 (by omega)
    exact .cons (further.map (fun right => Expr.binary .pow left right (some token.pos))
      fun more right exponent => Derives.raised derived sign exponent) fun _ _ _ => rfl
  · intro other
    exact .ended (by simpa using Derives.operand derived) fun _ _ _ => rfl

private theorem signed_settles
    (operands : Settles (Derives .signed) size room (signed size frames)
      (fun i => signed (room i) (others i)))
    (primaries : Settles (Derives .primary) size room (primary size frames)
      (fun i => primary (room i) (others i))) :
    Settles (Derives .signed) size room (signed size (frames + 1))
      (fun i => signed (room i) (others i + 1)) := by
  intro tokens genuine few
  apply Settled.branch (fun token => isOperator "-" token = true)
  · intro negated
    have sign := isOperator_iff.mp negated
    obtain ⟨token, rest, rfl⟩ := exists_cons_of_kind sign.kind (by decide)
    rw [peek_cons] at sign
    exact .cons ((operands.tail genuine few).map
      (fun operand => Expr.unary .neg operand (some token.pos))
      fun taken operand derived => Derives.negated sign derived) fun _ _ _ => rfl
  · intro other
    exact (primaries tokens genuine few).imp fun taken expr derived => .unsigned derived

private theorem closed_settled {value : α} {Derived : List Token → α → Prop} {tokens : List Token}
    (genuine : ∀ token ∈ tokens, token.Genuine)
    (closes : ∀ closing, closing.Is .punctuation ")" → Derived [closing] value) :
    Settled Derived room
      (fun _ other => (expect ")" other).andThen fun _ after => .ok (value, after)) tokens
      ((expect ")" tokens).andThen fun _ after => .ok (value, after)) := by
  have first : Settled (fun taken token => taken = [token] ∧ token.Is .punctuation ")") room
      (fun _ => expect ")") tokens (expect ")" tokens) :=
    expect_settles (by simp) tokens genuine (Nat.le_refl _)
  apply first.map fun _ => value
  rintro taken closing ⟨rfl, mark⟩
  exact closes closing mark

private theorem primary_settles
    (lists : Settles Arguments size room (arguments size frames)
      (fun i => arguments (room i) (others i)))
    (sums : Settles (Derives .sum) size room (sum size frames)
      (fun i => sum (room i) (others i))) :
    Settles (Derives .primary) size room (primary size (frames + 2))
      (fun i => primary (room i) (others i + 2)) := by
  intro tokens genuine few
  apply Settled.branch (fun token => token.kind = .number)
  · intro number
    obtain ⟨token, rest, rfl⟩ := exists_cons_of_kind number (by decide)
    exact .cons (.ended (.number number) fun _ _ _ => rfl) fun _ _ _ => rfl
  intro _
  apply Settled.branch (fun token => token.kind = .word)
  · intro word
    obtain ⟨token, rest, rfl⟩ := exists_cons_of_kind word (by decide)
    refine .cons (Settled.branch (fun token => token.text = "(") ?_ ?_) fun _ _ _ => rfl
    · intro called
      exact (lists.tail genuine few).map (fun args => Expr.call token.text args (some token.pos))
        fun taken args list => Derives.call word list
    · intro _
      exact .ended (.name word) fun _ _ _ => rfl
  intro _
  apply Settled.branch (fun token => token.text = "(")
  · intro opened
    obtain ⟨opening, rest, rfl⟩ := exists_cons_of_text opened (by decide)
    obtain ⟨head, behind⟩ := List.forall_mem_cons.mp genuine
    have opens := head.is_punctuation opened (by simp)
    refine .cons (Settled.andThen (sums.tail genuine few) ?_ ?_) fun _ _ _ => rfl
    · intro taken inner derived
      exact .of_missing [')'] rfl (.grouped opens derived ⟨rfl, rfl⟩)
    · rintro taken inner after rfl derived
      apply closed_settled (List.forall_mem_append.mp behind).2
      intro closing closes
      exact .grouped opens derived closes
  · intro _
    obtain ⟨expr, zero⟩ := derives_zero .primary
    exact .refused (.of_missing ['0'] rfl zero)

private def listed (item : List Token → Outcome Expr) (rounds : Nat) (tokens : List Token) :
    Outcome (List Expr) :=
  if (peek tokens).text = ")" then .ok ([], tokens.tail)
  else
    (commaList item rounds tokens).andThen fun args rest =>
      (expect ")" rest).andThen fun _ after => .ok (args, after)

private theorem arguments_eq (size frames : Nat) :
    arguments size (frames + 1) = fun tokens =>
      if (peek tokens).text = "(" then listed (sum size frames) size tokens.tail
      else reject (.text "(") tokens := by
  funext tokens
  rw [arguments, expect]
  split <;> rfl

private theorem listed_settles {item : List Token → Outcome Expr}
    {another : ι → List Token → Outcome Expr}
    (items : Settles (Derives .sum) (size + 1) room item another) {opening : Token}
    (opens : opening.Is .punctuation "(") :
    Settles (fun taken => Arguments (opening :: taken)) size (fun i => room i - 1)
      (listed item (size + 1)) (fun i => listed (another i) (room i - 1 + 1)) := by
  intro tokens genuine few
  apply Settled.branch (fun token => token.text = ")")
  · intro empty
    obtain ⟨closing, rest, rfl⟩ := exists_cons_of_text empty (by decide)
    have closes := (genuine closing List.mem_cons_self).is_punctuation empty (by simp)
    exact .cons (.ended (.none opens closes) fun _ _ _ => rfl) fun _ _ _ => rfl
  · intro _
    have list := commaList_settles items size (fun i => room i - 1) (by omega)
      (fun i => Nat.sub_le _ _) tokens genuine few
    apply list.andThen
    · intro taken args items
      exact .of_missing [')'] rfl (.some opens items ⟨rfl, rfl⟩)
    · rintro taken args rest rfl items
      apply closed_settled (List.forall_mem_append.mp genuine).2
      intro closing closes
      exact .some opens items closes

private theorem arguments_settles
    (sums : Settles (Derives .sum) size room (sum size frames)
      (fun i => sum (room i) (others i))) :
    Settles Arguments size room (arguments size (frames + 1))
      (fun i => arguments (room i) (others i + 1)) := by
  intro tokens genuine few
  simp only [arguments_eq]
  apply Settled.branch (fun token => token.text = "(")
  · intro opened
    obtain ⟨opening, rest, rfl⟩ := exists_cons_of_text opened (by decide)
    obtain ⟨head, behind⟩ := List.forall_mem_cons.mp genuine
    have opens := head.is_punctuation opened (by simp)
    rw [List.length_cons] at few
    obtain ⟨size, rfl⟩ : ∃ fewer, size = fewer + 1 := ⟨size - 1, by omega⟩
    refine .cons (listed_settles sums opens rest behind (by omega)) ?_
    intro i other shorter
    rw [Nat.sub_add_cancel (by omega), List.tail_cons]
  · intro _
    have none : Arguments [Token.ofChar '(', Token.ofChar ')'] [] := .none ⟨rfl, rfl⟩ ⟨rfl, rfl⟩
    exact .refused (.of_missing ['(', ')'] rfl none)

private theorem exists_add {frames : Nat} (spent : Nat) (more : ∀ i, frames + spent ≤ others i) :
    ∃ fewer : ι → Nat, (others = fun i => fewer i + spent) ∧ ∀ i, frames ≤ fewer i := by
  refine ⟨fun i => others i - spent, funext fun i => ?_, fun i => Nat.le_sub_of_add_le (more i)⟩
  exact (Nat.sub_add_cancel (Nat.le_trans (Nat.le_add_left _ _) (more i))).symm

/-- The outcomes of every level are settled, as those of the readers that it calls are. -/
theorem read_settles (size : Nat) (room : ι → Nat) (level : Level) {frames : Nat}
    {others : ι → Nat} (more : ∀ i, frames ≤ others i) :
    Settles (Derives level) size room (read size level frames)
      (fun i => read (room i) level (others i)) := by
  induction frames using Nat.strongRecOn generalizing others level with
  | ind frames ih =>
    have nothing {α : Type} {Derived : List Token → α → Prop}
        {another : ι → List Token → Outcome α} :
        Settles Derived size room (fun _ => .error .stackLimit) another :=
      fun _ _ _ => .stackLimit
    match level, frames with
    | .sum, 0 | .sum, 1 | .sum, 2 => exact nothing
    | .product, 0 | .product, 1 | .product, 2 => exact nothing
    | .power, 0 | .power, 1 => exact nothing
    | .signed, 0 => exact nothing
    | .primary, 0 | .primary, 1 => exact nothing
    | .sum, frames + 3 =>
      obtain ⟨others, rfl, fewer⟩ := exists_add 3 more
      exact operands_settles .sum (fun _ _ => sumOperator?_eq_some_iff.mp)
        (ih frames (by omega) .product fewer) .sum
    | .product, frames + 3 =>
      obtain ⟨others, rfl, fewer⟩ := exists_add 3 more
      exact operands_settles .product (fun _ _ => productOperator?_eq_some_iff.mp)
        (ih frames (by omega) .power fewer) .product
    | .power, frames + 2 =>
      obtain ⟨others, rfl, fewer⟩ := exists_add 2 more
      exact power_settles (ih frames (by omega) .signed fewer)
        (ih (frames + 1) (by omega) .power fun i => Nat.succ_le_succ (fewer i))
    | .signed, frames + 1 =>
      obtain ⟨others, rfl, fewer⟩ := exists_add 1 more
      exact signed_settles (ih frames (by omega) .signed fewer)
        (ih frames (by omega) .primary fewer)
    | .primary, 2 =>
      obtain ⟨others, rfl, -⟩ := exists_add 2 fun i => Nat.le_trans (Nat.zero_add 2).le (more i)
      exact primary_settles nothing nothing
    | .primary, frames + 3 =>
      obtain ⟨others, rfl, fewer⟩ := exists_add 3 more
      exact primary_settles (arguments_settles (ih frames (by omega) .sum fewer))
        (ih (frames + 1) (by omega) .sum fun i => Nat.succ_le_succ (fewer i))

theorem list_settles (size : Nat) (room : ι → Nat) {frames : Nat} {others : ι → Nat}
    (more : ∀ i, frames ≤ others i) :
    Settles Arguments size room (arguments size frames)
      (fun i => arguments (room i) (others i)) := by
  cases frames with
  | zero => exact fun _ _ _ => .stackLimit
  | succ frames =>
    obtain ⟨others, rfl, fewer⟩ := exists_add 1 more
    exact arguments_settles (read_settles size room .sum fewer)

end Levels

section Statements

variable {size frames : Nat} {room others : ι → Nat} {tokens : List Token}

private theorem equated_settled {Derived : List Token → α → Prop} (wrap : Expr → α)
    (more : ∀ i, frames ≤ others i) (genuine : ∀ token ∈ tokens, token.Genuine)
    (few : tokens.length ≤ size)
    (derives : ∀ equals body expr, equals.Is .punctuation "=" → Derives .sum body expr →
      Derived (equals :: body) (wrap expr)) :
    Settled Derived room
      (fun i other => (expect "=" other).andThen fun _ rest =>
        (sum (room i) (others i) rest).andThen fun expr rest => .ok (wrap expr, rest)) tokens
      ((expect "=" tokens).andThen fun _ rest =>
        (sum size frames rest).andThen fun expr rest => .ok (wrap expr, rest)) := by
  have sign : Settled (fun taken token => taken = [token] ∧ token.Is .punctuation "=") room
      (fun _ => expect "=") tokens (expect "=" tokens) :=
    expect_settles (by simp) tokens genuine few
  apply sign.andThen
  · rintro taken equals ⟨rfl, mark⟩
    obtain ⟨expr, zero⟩ := derives_zero .sum
    exact .of_missing ['0'] rfl (derives equals _ expr mark zero)
  · rintro taken equals rest rfl ⟨rfl, mark⟩
    simp only [List.cons_append, List.nil_append, List.length_cons] at genuine few
    have body := read_settles size room .sum more rest (List.forall_mem_cons.mp genuine).2
      (by omega)
    exact body.map wrap fun taken expr derived => derives equals taken expr mark derived

private theorem clause_settled {opening : Token} (keyword : opening.Is .keyword "let")
    (more : ∀ i, frames ≤ others i) (genuine : ∀ token ∈ tokens, token.Genuine)
    (few : tokens.length ≤ size) :
    Settled Sentence room (fun i => clause (room i) (others i)) (opening :: tokens)
      (clause size frames (opening :: tokens)) := by
  obtain _ | frames := frames
  · exact .stackLimit
  obtain ⟨others, rfl, fewer⟩ := exists_add 1 more
  have step (size frames : Nat) (other : List Token) : clause size (frames + 1) (opening :: other) =
      (expectKind .word other).andThen fun name rest =>
        (arguments size frames rest).andThen fun params rest =>
          (expect "=" rest).andThen fun _ rest =>
            (sum size frames rest).andThen fun body rest =>
              .ok (.clause name.text params body (some opening.pos), rest) := by
    rw [clause, expect, peek_cons, if_pos keyword.text]
    rfl
  obtain ⟨expr, zero⟩ := derives_zero .sum
  have equals : (Token.ofChar '=').Is .punctuation "=" := ⟨rfl, rfl⟩
  have none : Arguments [Token.ofChar '(', Token.ofChar ')'] [] := .none ⟨rfl, rfl⟩ ⟨rfl, rfl⟩
  rw [step]
  refine .cons (Settled.andThen (expectKind_settles tokens genuine few) ?_ ?_)
    fun i other _ => step (room i) (others i) other
  · rintro taken name ⟨rfl, word⟩
    have shortest := Sentence.clause keyword word none equals zero
    exact .of_missing ['(', ')', '=', '0'] rfl shortest
  · rintro taken name rest rfl ⟨rfl, word⟩
    simp only [List.cons_append, List.nil_append, List.length_cons] at genuine few
    have behind := (List.forall_mem_cons.mp genuine).2
    have list := list_settles size room fewer rest behind (by omega)
    refine (list.mono fun i => Nat.sub_le _ 1).andThen ?_ ?_
    · intro taken params list
      exact .of_missing ['=', '0'] rfl (Sentence.clause keyword word list equals zero)
    · rintro taken params rest rfl list
      rw [List.length_append] at few
      refine (equated_settled (fun body => Statement.clause name.text params body
        (some opening.pos)) fewer (List.forall_mem_append.mp behind).2 (by omega) ?_).mono
        fun i => Nat.sub_le _ 1
      intro equals body expr sign derived
      exact .clause keyword word list sign derived

private theorem constant_settled {opening : Token} (keyword : opening.Is .keyword "const")
    (more : ∀ i, frames ≤ others i) (genuine : ∀ token ∈ tokens, token.Genuine)
    (few : tokens.length ≤ size) :
    Settled Sentence room (fun i => constant (room i) (others i)) (opening :: tokens)
      (constant size frames (opening :: tokens)) := by
  obtain _ | frames := frames
  · exact .stackLimit
  obtain ⟨others, rfl, fewer⟩ := exists_add 1 more
  have step (size frames : Nat) (other : List Token) :
      constant size (frames + 1) (opening :: other) =
        (expectKind .word other).andThen fun name rest =>
          (expect "=" rest).andThen fun _ rest =>
            (sum size frames rest).andThen fun value rest =>
              .ok (.constant name.text value (some opening.pos), rest) := by
    rw [constant, expect, peek_cons, if_pos keyword.text]
    rfl
  rw [step]
  refine .cons (Settled.andThen (expectKind_settles tokens genuine few) ?_ ?_)
    fun i other _ => step (room i) (others i) other
  · rintro taken name ⟨rfl, word⟩
    obtain ⟨expr, zero⟩ := derives_zero .sum
    have equals : (Token.ofChar '=').Is .punctuation "=" := ⟨rfl, rfl⟩
    exact .of_missing ['=', '0'] rfl (Sentence.constant keyword word equals zero)
  · rintro taken name rest rfl ⟨rfl, word⟩
    simp only [List.cons_append, List.nil_append, List.length_cons] at genuine few
    refine (equated_settled (fun value => Statement.constant name.text value (some opening.pos))
      fewer (List.forall_mem_cons.mp genuine).2 (by omega) ?_).mono fun i => Nat.sub_le _ 1
    intro equals body expr sign derived
    exact .constant keyword word sign derived

theorem statement_settles (size : Nat) (room : ι → Nat) (more : ∀ i, frames ≤ others i) :
    Settles Sentence size room (statement size frames)
      (fun i => statement (room i) (others i)) := by
  intro tokens genuine few
  apply Settled.branch (fun token => token.text = "let")
  · intro word
    obtain ⟨opening, rest, rfl⟩ := exists_cons_of_text word (by decide)
    obtain ⟨head, behind⟩ := List.forall_mem_cons.mp genuine
    rw [List.length_cons] at few
    exact clause_settled (head.is_keyword word (by simp)) more behind (by omega)
  intro _
  apply Settled.branch (fun token => token.text = "const")
  · intro word
    obtain ⟨opening, rest, rfl⟩ := exists_cons_of_text word (by decide)
    obtain ⟨head, behind⟩ := List.forall_mem_cons.mp genuine
    rw [List.length_cons] at few
    exact constant_settled (head.is_keyword word (by simp)) more behind (by omega)
  · intro _
    have expression := read_settles size room .sum more tokens genuine few
    exact expression.map Statement.expression fun taken expr derived => .expression derived

/-- Reading a text is settled like reading a statement: where it is malformed, the token found is
the one after those taken, and they can be completed. -/
theorem whole_settled (genuine : ∀ token ∈ tokens, token.Genuine)
    (finished : whole frames tokens ≠ .error .stackLimit) :
    ∃ taken rest, tokens = taken ++ rest ∧
      (∀ error, whole frames tokens = .error (.malformed error) →
        error.found = peek rest ∧ Completable Sentence taken) ∧
      ∀ others, frames ≤ others → ∀ other, peek other = peek rest →
        whole others (taken ++ other) = whole frames tokens := by
  by_cases blank : (peek tokens).kind = .eof
  · refine ⟨[], tokens, rfl, by simp [whole, blank], ?_⟩
    intro others more other same
    simp [whole, same, blank]
  have read : statement tokens.length frames tokens ≠ .error .stackLimit := by
    intro limited
    rw [whole, if_neg blank, limited] at finished
    exact finished rfl
  -- the other readers differ in their room, which the tokens that follow need, and their frames
  obtain ⟨taken, rest, rfl, stops, again⟩ :=
    statement_settles tokens.length (fun i : Nat × { others // frames ≤ others } => i.1)
      (fun i => i.2.2) tokens genuine (Nat.le_refl _) read
  have rerun (others : Nat) (more : frames ≤ others) (other : List Token)
      (same : peek other = peek rest) : statement (taken ++ other).length others (taken ++ other) =
        (statement (taken ++ rest).length frames (taken ++ rest)).withRest other :=
    again (_, ⟨others, more⟩) other same (Nat.le_refl _)
  refine ⟨taken, rest, rfl, ?_, ?_⟩
  · intro error malformed
    rw [whole, if_neg blank] at malformed
    generalize statement (taken ++ rest).length frames (taken ++ rest) = outcome at stops malformed
    cases stops with
    | read derived =>
      by_cases ended : (peek rest).kind = .eof
      · simp [ended] at malformed
      · simp only [ended, if_false, Except.error.injEq, Failure.malformed.injEq] at malformed
        exact ⟨by rw [← malformed], .of_derived derived⟩
    | refused begun =>
      simp only [reject, Except.error.injEq, Failure.malformed.injEq] at malformed
      exact ⟨by rw [← malformed], begun⟩
  · intro others more other same
    rw [whole, peek_append same, if_neg blank, rerun others more other same, whole, if_neg blank]
    generalize statement (taken ++ rest).length frames (taken ++ rest) = outcome at stops ⊢
    cases stops with
    | read derived => simp only [Outcome.withRest, same]
    | refused begun => rfl

end Statements

end Calculator.Reader

import Calculator.Proofs.Statement.Soundness

namespace Calculator

namespace Grammar

/-- The frames that a level takes before it looks at a token. -/
def Level.depth : Level → Nat
  | .sum => 11
  | .product => 8
  | .power => 5
  | .signed => 3
  | .primary => 2

end Grammar

namespace Reader

open Grammar

variable {α β : Type} {size : Nat}

/-- Frames do not run out while fewer tokens than these are read. -/
def Finishes (count : Nat) (reader : List Token → Outcome α) : Prop :=
  ∀ tokens, (∀ token ∈ tokens, token.Genuine) → tokens.length < count →
    reader tokens ≠ .error .stackLimit

theorem Outcome.andThen_ne_stackLimit {outcome : Outcome α} {next : α → List Token → Outcome β}
    (first : outcome ≠ .error .stackLimit)
    (second : ∀ value rest, outcome = .ok (value, rest) → next value rest ≠ .error .stackLimit) :
    outcome.andThen next ≠ .error .stackLimit := by
  rcases outcome with failure | ⟨value, rest⟩
  · simpa [Outcome.andThen] using first
  · exact second value rest rfl

theorem expect_ne_stackLimit (text : String) (tokens : List Token) :
    expect text tokens ≠ .error .stackLimit := by
  unfold expect reject
  split <;> simp

theorem expectKind_ne_stackLimit (kind : Token.Kind) (tokens : List Token) :
    expectKind kind tokens ≠ .error .stackLimit := by
  unfold expectKind reject
  split <;> simp

/-- What is left after a sound reader is not longer than what it was given. -/
private theorem Sound.shorter {Derived : List Token → α → Prop} {reader : List Token → Outcome α}
    (sound : Sound Derived reader) {tokens rest : List Token} {value : α}
    (genuine : ∀ token ∈ tokens, token.Genuine) (read : reader tokens = .ok (value, rest)) :
    (∀ token ∈ rest, token.Genuine) ∧ rest.length ≤ tokens.length := by
  obtain ⟨taken, rfl, -⟩ := sound tokens genuine value rest read
  exact ⟨(List.forall_mem_append.mp genuine).2, by simp⟩

section Repetition

variable {count : Nat} {Derived : List Token → Expr → Prop} {item : List Token → Outcome Expr}

private theorem chain_finishes (sound : Sound Derived item) (finishes : Finishes count item)
    (operator? : Token → Option BinaryOp) (rounds : Nat) (left : Expr) :
    Finishes count (chain operator? item rounds left) := by
  induction rounds generalizing left with
  | zero =>
    intro tokens genuine few
    simp [chain]
  | succ rounds ih =>
    intro tokens genuine few
    rw [chain]
    cases operator? (peek tokens) with
    | none => simp
    | some op =>
      have behind : ∀ token ∈ tokens.tail, token.Genuine :=
        fun token member => genuine token (List.mem_of_mem_tail member)
      have fewer : tokens.tail.length ≤ tokens.length := by simp
      apply Outcome.andThen_ne_stackLimit (finishes _ behind (by omega))
      intro right rest read
      obtain ⟨after, shorter⟩ := sound.shorter behind read
      exact ih _ rest after (by omega)

private theorem commaList_finishes (sound : Sound Derived item) (finishes : Finishes count item)
    (rounds : Nat) : Finishes count (commaList item rounds) := by
  induction rounds with
  | zero =>
    intro tokens genuine few
    simp [commaList, reject]
  | succ rounds ih =>
    intro tokens genuine few
    apply Outcome.andThen_ne_stackLimit (finishes _ genuine few)
    intro first rest read
    obtain ⟨after, shorter⟩ := sound.shorter genuine read
    split
    · have behind : ∀ token ∈ rest.tail, token.Genuine :=
        fun token member => after token (List.mem_of_mem_tail member)
      have fewer : rest.tail.length ≤ rest.length := by simp
      apply Outcome.andThen_ne_stackLimit (ih _ behind (by omega))
      simp
    · simp

end Repetition

section Levels

variable {count frames : Nat}

private theorem Finishes.tail {reader : List Token → Outcome α} (finishes : Finishes count reader)
    {token : Token} {rest : List Token} (genuine : ∀ other ∈ token :: rest, other.Genuine)
    (few : (token :: rest).length < count + 1) : reader rest ≠ .error .stackLimit :=
  finishes rest (List.forall_mem_cons.mp genuine).2 (Nat.lt_of_succ_lt_succ few)

private theorem operands_finishes {Derived : List Token → Expr → Prop}
    {item : List Token → Outcome Expr} (sound : Sound Derived item) (finishes : Finishes count item)
    (operator? : Token → Option BinaryOp) :
    Finishes count fun tokens => (item tokens).andThen (chain operator? item size) := by
  intro tokens genuine few
  apply Outcome.andThen_ne_stackLimit (finishes tokens genuine few)
  intro left rest read
  obtain ⟨after, shorter⟩ := sound.shorter genuine read
  exact chain_finishes sound finishes operator? size left rest after (by omega)

private theorem power_finishes (bases : Finishes (count + 1) (signed size frames))
    (exponents : Finishes count (power size (frames + 1))) :
    Finishes (count + 1) (power size (frames + 2)) := by
  intro tokens genuine few
  apply Outcome.andThen_ne_stackLimit (bases tokens genuine few)
  intro left rest read
  obtain ⟨after, shorter⟩ := (read_sound frames .signed).shorter genuine read
  by_cases raised : isOperator "^" (peek rest) = true
  · obtain ⟨token, behind, rfl⟩ := exists_cons_of_kind (isOperator_iff.mp raised).kind (by decide)
    rw [if_pos raised]
    apply Outcome.andThen_ne_stackLimit (exponents.tail after (by omega))
    simp
  · rw [if_neg raised]
    simp

private theorem signed_finishes (operands : Finishes count (signed size frames))
    (primaries : Finishes (count + 1) (primary size frames)) :
    Finishes (count + 1) (signed size (frames + 1)) := by
  intro tokens genuine few
  rw [signed]
  by_cases negated : isOperator "-" (peek tokens) = true
  · obtain ⟨token, behind, rfl⟩ := exists_cons_of_kind (isOperator_iff.mp negated).kind (by decide)
    rw [if_pos negated]
    apply Outcome.andThen_ne_stackLimit (operands.tail genuine few)
    simp
  · rw [if_neg negated]
    exact primaries tokens genuine few

private theorem primary_finishes (lists : Finishes count (arguments size frames))
    (sums : Finishes count (sum size frames)) :
    Finishes (count + 1) (primary size (frames + 2)) := by
  intro tokens genuine few
  cases tokens with
  | nil => simp [primary, peek, reject]
  | cons token rest =>
    simp only [primary, peek_cons, List.tail_cons]
    by_cases number : token.kind = .number
    · simp [number]
    rw [if_neg number]
    by_cases word : token.kind = .word
    · rw [if_pos word]
      by_cases called : (peek rest).text = "("
      · rw [if_pos called]
        apply Outcome.andThen_ne_stackLimit (lists.tail genuine few)
        simp
      · simp [called]
    rw [if_neg word]
    by_cases opened : token.text = "("
    · rw [if_pos opened]
      apply Outcome.andThen_ne_stackLimit (sums.tail genuine few)
      intro inner after read
      apply Outcome.andThen_ne_stackLimit (expect_ne_stackLimit _ _)
      simp
    · simp [opened, reject]

private theorem arguments_finishes (sums : Finishes count (sum size frames)) :
    Finishes count (arguments size (frames + 1)) := by
  intro tokens genuine few
  apply Outcome.andThen_ne_stackLimit (expect_ne_stackLimit _ _)
  intro opening rest opened
  obtain ⟨rfl, -⟩ := (expect_eq_ok_iff (by decide)).mp opened
  obtain ⟨-, behind⟩ := List.forall_mem_cons.mp genuine
  rw [List.length_cons] at few
  split
  · simp
  · apply Outcome.andThen_ne_stackLimit
      (commaList_finishes (read_sound frames .sum) sums size rest behind (by omega))
    intro args after read
    apply Outcome.andThen_ne_stackLimit (expect_ne_stackLimit _ _)
    simp

private theorem finishes_zero (reader : List Token → Outcome α) : Finishes 0 reader :=
  fun _ _ few => absurd few (Nat.not_lt_zero _)

/-- Twelve frames for each token are enough, and those of the level for the first. -/
theorem read_finishes (frames : Nat) (level : Level) (count : Nat)
    (enough : 12 * count + level.depth ≤ frames + 12) :
    Finishes count (read size level frames) := by
  induction frames using Nat.strongRecOn generalizing level count with
  | ind frames ih =>
    match level, count, frames with
    | _, 0, _ => exact finishes_zero _
    | .sum, count + 1, frames =>
      simp only [Level.depth] at enough
      obtain ⟨frames, rfl⟩ : ∃ fewer, frames = fewer + 3 := ⟨frames - 3, by omega⟩
      have products := ih frames (by omega) .product (count + 1) (by simp only [Level.depth]; omega)
      exact operands_finishes (read_sound frames .product) products sumOperator?
    | .product, count + 1, frames =>
      simp only [Level.depth] at enough
      obtain ⟨frames, rfl⟩ : ∃ fewer, frames = fewer + 3 := ⟨frames - 3, by omega⟩
      have powers := ih frames (by omega) .power (count + 1) (by simp only [Level.depth]; omega)
      exact operands_finishes (read_sound frames .power) powers productOperator?
    | .power, count + 1, frames =>
      simp only [Level.depth] at enough
      obtain ⟨frames, rfl⟩ : ∃ fewer, frames = fewer + 2 := ⟨frames - 2, by omega⟩
      exact power_finishes
        (ih frames (by omega) .signed (count + 1) (by simp only [Level.depth]; omega))
        (ih (frames + 1) (by omega) .power count (by simp only [Level.depth]; omega))
    | .signed, count + 1, frames =>
      simp only [Level.depth] at enough
      obtain ⟨frames, rfl⟩ : ∃ fewer, frames = fewer + 1 := ⟨frames - 1, by omega⟩
      exact signed_finishes
        (ih frames (by omega) .signed count (by simp only [Level.depth]; omega))
        (ih frames (by omega) .primary (count + 1) (by simp only [Level.depth]; omega))
    | .primary, count + 1, frames =>
      simp only [Level.depth] at enough
      obtain ⟨frames, rfl⟩ : ∃ fewer, frames = fewer + 2 := ⟨frames - 2, by omega⟩
      -- a sum inside comes after a token, whose twelve frames it may spend
      have sums := ih frames (by omega) .sum count (by simp only [Level.depth]; omega)
      apply primary_finishes _ sums
      match count, frames with
      | 0, _ => exact finishes_zero _
      | count + 1, frames + 1 =>
        exact arguments_finishes
          (ih frames (by omega) .sum (count + 1) (by simp only [Level.depth]; omega))

private theorem clause_finishes (lists : Finishes count (arguments size frames))
    (sums : Finishes count (sum size frames)) :
    Finishes (count + 1) (clause size (frames + 1)) := by
  intro tokens genuine few
  apply Outcome.andThen_ne_stackLimit (expect_ne_stackLimit _ _)
  intro opening named opened
  obtain ⟨rfl, -⟩ := (expect_eq_ok_iff (by decide)).mp opened
  apply Outcome.andThen_ne_stackLimit (expectKind_ne_stackLimit _ _)
  intro name listed named
  obtain ⟨rfl, -⟩ := (expectKind_eq_ok_iff (by decide)).mp named
  simp only [List.forall_mem_cons, List.length_cons] at genuine few
  obtain ⟨-, -, genuine⟩ := genuine
  apply Outcome.andThen_ne_stackLimit (lists listed genuine (by omega))
  intro params rest read
  obtain ⟨genuine, shorter⟩ := (list_sound frames).shorter genuine read
  apply Outcome.andThen_ne_stackLimit (expect_ne_stackLimit _ _)
  intro equals body equated
  obtain ⟨rfl, -⟩ := (expect_eq_ok_iff (by decide)).mp equated
  rw [List.length_cons] at shorter
  apply Outcome.andThen_ne_stackLimit
    (sums body (List.forall_mem_cons.mp genuine).2 (by omega))
  simp

private theorem constant_finishes (sums : Finishes count (sum size frames)) :
    Finishes (count + 1) (constant size (frames + 1)) := by
  intro tokens genuine few
  apply Outcome.andThen_ne_stackLimit (expect_ne_stackLimit _ _)
  intro opening named opened
  obtain ⟨rfl, -⟩ := (expect_eq_ok_iff (by decide)).mp opened
  apply Outcome.andThen_ne_stackLimit (expectKind_ne_stackLimit _ _)
  intro name rest named
  obtain ⟨rfl, -⟩ := (expectKind_eq_ok_iff (by decide)).mp named
  apply Outcome.andThen_ne_stackLimit (expect_ne_stackLimit _ _)
  intro equals value equated
  obtain ⟨rfl, -⟩ := (expect_eq_ok_iff (by decide)).mp equated
  simp only [List.forall_mem_cons, List.length_cons] at genuine few
  obtain ⟨-, -, -, genuine⟩ := genuine
  apply Outcome.andThen_ne_stackLimit (sums value genuine (by omega))
  simp

/-- Twelve frames for each token and twelve more are enough for a statement. -/
theorem statement_finishes (size : Nat) {tokens : List Token}
    (genuine : ∀ token ∈ tokens, token.Genuine)
    (enough : 12 * tokens.length + 12 ≤ frames) :
    statement size frames tokens ≠ .error .stackLimit := by
  have few : tokens.length < tokens.length + 1 := by omega
  rw [statement]
  -- a definition spends a frame of its own, but its keyword is a token of twelve
  obtain ⟨frames, rfl⟩ : ∃ fewer, frames = fewer + 2 := ⟨frames - 2, by omega⟩
  have sums (spared : Nat) : Finishes tokens.length (sum size (frames + spared)) :=
    read_finishes (frames + spared) .sum _ (by simp only [Level.depth]; omega)
  split
  · exact clause_finishes (arguments_finishes (sums 0)) (sums 1) tokens genuine few
  · split
    · exact constant_finishes (sums 1) tokens genuine few
    · have read : Finishes (tokens.length + 1) (sum size (frames + 2)) :=
        read_finishes (frames + 2) .sum _ (by simp only [Level.depth]; omega)
      apply Outcome.andThen_ne_stackLimit (read tokens genuine few)
      simp

end Levels

end Reader

end Calculator

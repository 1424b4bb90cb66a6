import Calculator.Proofs.Statement.Soundness
import Calculator.Proofs.Token.Continuation

/-! Reading looks at one token beyond those that it takes. Whatever a reader comes to is settled by
the tokens that it took and the next one: the same comes out whatever follows, and with any larger
budget. Where a token is refused, the tokens before it can be completed. -/

namespace Calculator

namespace Grammar

variable {α β : Type}

/-- The tokens begin something that can be derived: a few characters, each a token of its own,
complete it. -/
def Completable (Derived : List Token → α → Prop) (taken : List Token) : Prop :=
  ∃ missing : List Char, (∀ c ∈ missing, Text.isBlank c = false) ∧
    ∃ value, Derived (taken ++ missing.map Token.ofChar) value

namespace Completable

variable {Derived : List Token → α → Prop} {First : List Token → β → Prop} {taken : List Token}

theorem of_derived {value : α} (derived : Derived taken value) : Completable Derived taken :=
  ⟨[], by simp, value, by simpa using derived⟩

theorem andThen (first : Completable First taken)
    (second : ∀ part value, First part value → Completable Derived part) :
    Completable Derived taken := by
  obtain ⟨missing, visible, value, part⟩ := first
  obtain ⟨further, also, result, derived⟩ := second _ value part
  exact ⟨missing ++ further, List.forall_mem_append.mpr ⟨visible, also⟩, result,
    by simpa using derived⟩

theorem imp {Wider : List Token → α → Prop} (begun : Completable Derived taken)
    (wider : ∀ tokens value, Derived tokens value → Wider tokens value) :
    Completable Wider taken := by
  obtain ⟨missing, visible, value, derived⟩ := begun
  exact ⟨missing, visible, value, wider _ _ derived⟩

theorem of_missing (missing : List Char) (visible : missing.any Text.isBlank = false) {value : α}
    (derived : Derived (taken ++ missing.map Token.ofChar) value) : Completable Derived taken :=
  ⟨missing, by simpa using visible, value, derived⟩

end Completable

theorem derives_zero (level : Level) :
    ∃ expr, Derives level [Token.ofChar '0'] expr := by
  have primary : Derives .primary [Token.ofChar '0'] _ := .number rfl
  have power := Derives.operand (.unsigned primary)
  have product := Derives.product power .done
  cases level with
  | sum => exact ⟨_, .sum product .done⟩
  | product => exact ⟨_, product⟩
  | power => exact ⟨_, power⟩
  | signed => exact ⟨_, .unsigned primary⟩
  | primary => exact ⟨_, primary⟩

end Grammar

namespace Reader

open Grammar

variable {α β ι : Type}

def Outcome.withRest (outcome : Outcome α) (other : List Token) : Outcome α :=
  match outcome with
  | .error failure => .error failure
  | .ok (value, _) => .ok (value, other)

/-- Where reading ended: behind something derived, or before a token that was refused though the
tokens taken can be completed. -/
inductive Stops (Derived : List Token → α → Prop) (taken rest : List Token) : Outcome α → Prop where
  | read {value : α} : Derived taken value → Stops Derived taken rest (.ok (value, rest))
  | refused {expected : Expectation} :
    Completable Derived taken → Stops Derived taken rest (reject expected rest)

/-- Unless frames ran out, the outcome is settled by the tokens taken and the one after them: also
each of the other readers comes to it, whatever tokens follow, if it has room for them. -/
def Settled (Derived : List Token → α → Prop) (room : ι → Nat)
    (another : ι → List Token → Outcome α) (tokens : List Token) (outcome : Outcome α) : Prop :=
  outcome ≠ .error .stackLimit →
    ∃ taken rest, tokens = taken ++ rest ∧ Stops Derived taken rest outcome ∧
      ∀ i other, peek other = peek rest → (taken ++ other).length ≤ room i →
        another i (taken ++ other) = outcome.withRest other

/-- The outcomes of a reader are settled, on tokens for which it has room. -/
def Settles (Derived : List Token → α → Prop) (size : Nat) (room : ι → Nat)
    (reader : List Token → Outcome α) (another : ι → List Token → Outcome α) : Prop :=
  ∀ tokens, (∀ token ∈ tokens, token.Genuine) → tokens.length ≤ size →
    Settled Derived room another tokens (reader tokens)

theorem peek_append {other rest : List Token} (same : peek other = peek rest)
    (taken : List Token) : peek (taken ++ other) = peek (taken ++ rest) := by
  cases taken with
  | nil => exact same
  | cons token taken => rfl

theorem Stops.append {Derived : List Token → α → Prop} {before taken rest : List Token}
    {outcome : Outcome α}
    (stops : Stops (fun more => Derived (before ++ more)) taken rest outcome) :
    Stops Derived (before ++ taken) rest outcome := by
  cases stops with
  | read derived => exact .read derived
  | refused begun =>
    obtain ⟨missing, visible, value, derived⟩ := begun
    exact .refused ⟨missing, visible, value, by rwa [List.append_assoc]⟩

namespace Settled

variable {Derived : List Token → α → Prop} {First : List Token → β → Prop} {room : ι → Nat}
  {another : ι → List Token → Outcome α} {tokens : List Token} {outcome : Outcome α}

theorem stackLimit : Settled Derived room another tokens (.error .stackLimit) :=
  fun finished => absurd rfl finished

theorem mono {smaller : ι → Nat} (settled : Settled Derived room another tokens outcome)
    (less : ∀ i, smaller i ≤ room i) : Settled Derived smaller another tokens outcome := by
  intro finished
  obtain ⟨taken, rest, split, stops, again⟩ := settled finished
  exact ⟨taken, rest, split, stops,
    fun i other same fits => again i other same (Nat.le_trans fits (less i))⟩

theorem imp {Wider : List Token → α → Prop}
    (settled : Settled Derived room another tokens outcome)
    (wider : ∀ taken value, Derived taken value → Wider taken value) :
    Settled Wider room another tokens outcome := by
  intro finished
  obtain ⟨taken, rest, split, stops, again⟩ := settled finished
  refine ⟨taken, rest, split, ?_, again⟩
  cases stops with
  | read derived => exact .read (wider _ _ derived)
  | refused begun => exact .refused (begun.imp wider)

theorem ended {value : α} (derived : Derived [] value)
    (again : ∀ i other, peek other = peek tokens → another i other = .ok (value, other)) :
    Settled Derived room another tokens (.ok (value, tokens)) :=
  fun _ => ⟨[], tokens, rfl, .read derived, fun i other same _ => again i other same⟩

theorem refused {expected : Expectation} (begun : Completable Derived []) :
    Settled Derived room (fun _ => reject expected) tokens (reject expected tokens) := by
  refine fun _ => ⟨[], tokens, rfl, .refused begun, fun i other same _ => ?_⟩
  simp [reject, Outcome.withRest, same]

theorem cons {further : ι → List Token → Outcome α} {token : Token} {rest : List Token}
    (settled : Settled (fun taken => Derived (token :: taken)) (fun i => room i - 1) further rest
      outcome)
    (step : ∀ i other, other.length < room i → another i (token :: other) = further i other) :
    Settled Derived room another (token :: rest) outcome := by
  intro finished
  obtain ⟨taken, after, rfl, stops, again⟩ := settled finished
  have ends : Stops Derived ([token] ++ taken) after outcome := stops.append
  refine ⟨token :: taken, after, rfl, ends, ?_⟩
  intro i other same fits
  simp only [List.cons_append, List.length_cons] at fits ⊢
  rw [step i _ (by omega)]
  exact again i other same (show _ ≤ room i - 1 by omega)

/-- Where the readers tell two cases apart by the current token, each case is settled by itself. -/
theorem branch (accepted : Token → Prop) [DecidablePred accepted]
    {first second : ι → List Token → Outcome α} {yes no : Outcome α}
    (present : accepted (peek tokens) → Settled Derived room first tokens yes)
    (absent : ¬accepted (peek tokens) → Settled Derived room second tokens no) :
    Settled Derived room
      (fun i other => if accepted (peek other) then first i other else second i other) tokens
      (if accepted (peek tokens) then yes else no) := by
  by_cases current : accepted (peek tokens)
  · simp only [current, if_true]
    intro finished
    obtain ⟨taken, rest, rfl, stops, again⟩ := present current finished
    refine ⟨taken, rest, rfl, stops, fun i other same fits => ?_⟩
    simp only [peek_append same taken, current, if_true]
    exact again i other same fits
  · simp only [current, if_false]
    intro finished
    obtain ⟨taken, rest, rfl, stops, again⟩ := absent current finished
    refine ⟨taken, rest, rfl, stops, fun i other same fits => ?_⟩
    simp only [peek_append same taken, current, if_false]
    exact again i other same fits

/-- Two readers in sequence: the second goes on where the first one stopped, and whatever the first
one reads can be completed. -/
theorem andThen {reader : ι → List Token → Outcome β} {outcome : Outcome β}
    {next : β → List Token → Outcome α} {following : ι → β → List Token → Outcome α}
    (first : Settled First room reader tokens outcome)
    (begun : ∀ taken value, First taken value → Completable Derived taken)
    (second : ∀ taken value rest, tokens = taken ++ rest → First taken value →
      Settled (fun more => Derived (taken ++ more)) room (fun i => following i value) rest
        (next value rest)) :
    Settled Derived room (fun i other => (reader i other).andThen (following i)) tokens
      (outcome.andThen next) := by
  intro finished
  have started : outcome ≠ .error .stackLimit := by
    rintro rfl
    exact finished rfl
  obtain ⟨taken, rest, rfl, stops, again⟩ := first started
  cases stops with
  | refused begins =>
    refine ⟨taken, rest, rfl, .refused (begins.andThen begun), fun i other same fits => ?_⟩
    simp only [again i other same fits]
    rfl
  | @read value derived =>
    obtain ⟨more, after, rfl, stops, further⟩ := second taken value rest rfl derived finished
    refine ⟨taken ++ more, after, by simp, stops.append, fun i other same fits => ?_⟩
    have ahead : peek (more ++ other) = peek (more ++ after) := peek_append same more
    rw [List.append_assoc] at fits ⊢
    simp only [again i _ ahead fits]
    exact further i other same (by simp only [List.length_append] at fits ⊢; omega)

theorem map {reader : ι → List Token → Outcome β} {outcome : Outcome β} (wrap : β → α)
    (first : Settled First room reader tokens outcome)
    (wraps : ∀ taken value, First taken value → Derived taken (wrap value)) :
    Settled Derived room
      (fun i other => (reader i other).andThen fun value rest => .ok (wrap value, rest)) tokens
      (outcome.andThen fun value rest => .ok (wrap value, rest)) := by
  apply first.andThen
  · intro taken value derived
    exact .of_derived (wraps taken value derived)
  · intro taken value rest split derived
    exact .ended (by simpa using wraps taken value derived) fun _ _ _ => rfl

end Settled

namespace Settles

variable {Derived : List Token → α → Prop} {size : Nat} {room : ι → Nat}
  {reader : List Token → Outcome α} {another : ι → List Token → Outcome α}

theorem mono (settles : Settles Derived size room reader another) {fewer : Nat}
    {smaller : ι → Nat} (few : fewer ≤ size) (less : ∀ i, smaller i ≤ room i) :
    Settles Derived fewer smaller reader another :=
  fun tokens genuine fits => (settles tokens genuine (Nat.le_trans fits few)).mono less

theorem tail (settles : Settles Derived size room reader another) {token : Token}
    {rest : List Token} (genuine : ∀ other ∈ token :: rest, other.Genuine)
    (fits : (token :: rest).length ≤ size) :
    Settled Derived (fun i => room i - 1) another rest (reader rest) :=
  (settles rest (List.forall_mem_cons.mp genuine).2 (Nat.le_of_succ_le fits)).mono
    fun _ => Nat.sub_le _ _

end Settles

section Terminals

variable {size : Nat} {room : ι → Nat}

private theorem exists_mark {text : String} (mark : text ∈ ["(", ")", ",", "="]) :
    ∃ c, Text.isBlank c = false ∧ (Token.ofChar c).Is .punctuation text := by
  simp only [List.mem_cons, List.not_mem_nil, or_false] at mark
  rcases mark with rfl | rfl | rfl | rfl
  · exact ⟨'(', by decide, rfl, rfl⟩
  · exact ⟨')', by decide, rfl, rfl⟩
  · exact ⟨',', by decide, rfl, rfl⟩
  · exact ⟨'=', by decide, rfl, rfl⟩

theorem expect_settles {text : String} (mark : text ∈ ["(", ")", ",", "="]) :
    Settles (fun taken token => taken = [token] ∧ token.Is .punctuation text) size room
      (expect text) (fun _ => expect text) := by
  intro tokens genuine few
  apply Settled.branch (fun token => token.text = text)
  · intro same
    obtain ⟨token, rest, rfl⟩ := exists_cons_of_text same (by rintro rfl; simp at mark)
    have head := (genuine token List.mem_cons_self).is_punctuation same mark
    exact .cons (.ended ⟨rfl, head⟩ fun _ _ _ => rfl) fun _ _ _ => rfl
  · intro other
    obtain ⟨c, visible, alone⟩ := exists_mark mark
    exact .refused (.of_missing [c] (by simpa using visible) ⟨rfl, alone⟩)

theorem expectKind_settles :
    Settles (fun taken token => taken = [token] ∧ token.kind = .word) size room
      (expectKind .word) (fun _ => expectKind .word) := by
  intro tokens genuine few
  apply Settled.branch (fun token => token.kind = .word)
  · intro same
    obtain ⟨token, rest, rfl⟩ := exists_cons_of_kind same (by decide)
    exact .cons (.ended ⟨rfl, same⟩ fun _ _ _ => rfl) fun _ _ _ => rfl
  · intro other
    exact .refused (.of_missing ['x'] rfl ⟨rfl, rfl⟩)

end Terminals

section Repetition

variable {size : Nat} {room : ι → Nat} {operand : List Token → Outcome Expr}
  {another : ι → List Token → Outcome Expr}

theorem chain_eq_of_none {operator? : Token → Option BinaryOp} {tokens : List Token}
    (last : operator? (peek tokens) = none) (rounds : Nat) (left : Expr) :
    chain operator? operand rounds left tokens = .ok (left, tokens) := by
  cases rounds <;> simp [chain, last]

/-- Each round takes at least one token, so that rounds never run out. -/
theorem chain_settles (level : Level) {operator? : Token → Option BinaryOp}
    (operators : ∀ token op, operator? token = some op →
      op ∈ level.operators ∧ token.Is .operator op.symbol)
    (operands : Settles (Derives level.tighter) size room operand another)
    (rounds : Nat) (others : ι → Nat) (left : Expr) (fewer : rounds ≤ size)
    (less : ∀ i, others i ≤ room i) :
    Settles (Joined level left) rounds others (chain operator? operand rounds left)
      (fun i => chain operator? (another i) (others i) left) := by
  induction rounds generalizing others left with
  | zero =>
    intro tokens genuine few
    obtain rfl : tokens = [] := List.eq_nil_of_length_eq_zero (by omega)
    have last : operator? (peek []) = none := by
      rw [Option.eq_none_iff_forall_ne_some]
      intro op found
      cases (operators _ op found).2.kind
    exact .ended .done fun i other same => chain_eq_of_none (same ▸ last) (others i) left
  | succ rounds ih =>
    intro tokens genuine few
    rw [chain]
    cases next : operator? (peek tokens) with
    | none => exact .ended .done fun i other same => chain_eq_of_none (same ▸ next) (others i) left
    | some op =>
      obtain ⟨member, sign⟩ := operators _ op next
      obtain ⟨token, rest, rfl⟩ := exists_cons_of_kind sign.kind (by decide)
      rw [peek_cons] at next sign
      have behind := (List.forall_mem_cons.mp genuine).2
      have few : rest.length ≤ rounds := Nat.le_of_succ_le_succ few
      have one (i : ι) : others i - 1 ≤ room i := Nat.le_trans (Nat.sub_le _ _) (less i)
      have first : Settled (Derives level.tighter) (fun i => others i - 1) another rest
          (operand rest) :=
        operands.mono (by omega) one rest behind few
      -- another reader spends a round here, which it has because it has room for the operator
      have step (i : ι) (other : List Token) (shorter : other.length < others i) :
          chain operator? (another i) (others i) left (token :: other) =
            (another i other).andThen fun right after =>
              chain operator? (another i) (others i - 1) (.binary op left right (some token.pos))
                after := by
        obtain ⟨rounds, same⟩ : ∃ rounds, others i = rounds + 1 := ⟨others i - 1, by omega⟩
        simp [same, chain, next]
      refine Settled.cons (Settled.andThen first ?_ ?_) step
      · intro taken right derived
        have joined : Joined level left (token :: (taken ++ [])) _ :=
          .join member sign derived .done
        exact .of_derived (by simpa using joined)
      · rintro taken right middle rfl derived
        have after := (List.forall_mem_append.mp behind).2
        rw [List.length_append] at few
        have further := ih (fun i => others i - 1) (.binary op left right (some token.pos))
          (by omega) one middle after (by omega)
        exact further.imp fun more expr joined => .join member sign derived joined

theorem commaList_settles (items : Settles (Derives .sum) size room operand another)
    (rounds : Nat) (others : ι → Nat) (fewer : rounds ≤ size) (less : ∀ i, others i ≤ room i) :
    Settles Items rounds others (commaList operand (rounds + 1))
      (fun i => commaList (another i) (others i + 1)) := by
  induction rounds using Nat.strongRecOn generalizing others with
  | ind rounds ih =>
    intro tokens genuine few
    have first := items.mono fewer less tokens genuine few
    refine Settled.andThen first (fun taken expr derived => .of_derived (.last derived)) ?_
    rintro taken expr middle rfl derived
    apply Settled.branch (fun token => token.text = ",")
    · intro same
      obtain ⟨comma, rest, rfl⟩ := exists_cons_of_text same (by decide)
      obtain ⟨head, behind⟩ := List.forall_mem_cons.mp (List.forall_mem_append.mp genuine).2
      have mark := head.is_punctuation same (by simp)
      simp only [List.length_append, List.length_cons] at few
      obtain ⟨rounds, rfl⟩ : ∃ fewer, rounds = fewer + 1 := ⟨rounds - 1, by omega⟩
      have one (i : ι) : others i - 1 ≤ room i := Nat.le_trans (Nat.sub_le _ _) (less i)
      have further := ih rounds (by omega) (fun i => others i - 1) (by omega) one rest behind
        (by omega)
      refine .cons (further.map (expr :: ·) fun more exprs list => .more derived mark list) ?_
      intro i other shorter
      rw [Nat.sub_add_cancel (by omega), List.tail_cons]
    · intro other
      exact .ended (by simpa using Items.last derived) fun _ _ _ => rfl

end Repetition

end Reader

end Calculator

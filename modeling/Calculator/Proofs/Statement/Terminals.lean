import Calculator.Proofs.Statement.Grammar
import Calculator.Proofs.Token.Scan

namespace Calculator

namespace Token.Genuine

theorem is_punctuation {token : Token} (genuine : token.Genuine) {text : String}
    (same : token.text = text) (mark : text ∈ ["(", ")", ",", "="]) : token.Is .punctuation text :=
  ⟨genuine.punctuation (same ▸ mark), same⟩

theorem is_keyword {token : Token} (genuine : token.Genuine) {text : String}
    (same : token.text = text) (word : text ∈ ["let", "const"]) : token.Is .keyword text :=
  ⟨genuine.keyword (same ▸ word), same⟩

end Token.Genuine

namespace Reader

open Grammar

variable {tokens rest : List Token} {token : Token}

@[simp] theorem peek_cons (token : Token) (rest : List Token) : peek (token :: rest) = token := by
  rw [peek]

theorem exists_cons_of_kind {kind : Token.Kind} (same : (peek tokens).kind = kind)
    (visible : kind ≠ .eof) : ∃ token rest, tokens = token :: rest := by
  cases tokens with
  | nil => exact absurd same.symm visible
  | cons token rest => exact ⟨token, rest, rfl⟩

theorem exists_cons_of_text {text : String} (same : (peek tokens).text = text)
    (visible : text ≠ "") : ∃ token rest, tokens = token :: rest := by
  cases tokens with
  | nil => exact absurd same.symm visible
  | cons token rest => exact ⟨token, rest, rfl⟩

private theorem accept_eq_ok_iff (Accepted : Token → Prop) [DecidablePred Accepted]
    (present : ¬Accepted (peek [])) (expected : Expectation) :
    (if Accepted (peek tokens) then .ok (peek tokens, tokens.tail) else reject expected tokens) =
      (.ok (token, rest) : Outcome Token) ↔ tokens = token :: rest ∧ Accepted token := by
  cases tokens with
  | nil => simp [present, reject]
  | cons first tail =>
    by_cases accepted : Accepted first
    · simp only [peek_cons, accepted, if_true, List.tail_cons, Except.ok.injEq, Prod.mk.injEq,
        List.cons.injEq]
      constructor
      · rintro ⟨rfl, rfl⟩
        exact ⟨⟨rfl, rfl⟩, accepted⟩
      · exact And.left
    · simp only [peek_cons, accepted, if_false, reject, List.cons.injEq, reduceCtorEq, false_iff]
      rintro ⟨⟨rfl, -⟩, other⟩
      exact accepted other

theorem expect_eq_ok_iff {text : String} (visible : text ≠ "") :
    expect text tokens = .ok (token, rest) ↔ tokens = token :: rest ∧ token.text = text :=
  accept_eq_ok_iff (fun token => token.text = text) visible.symm _

theorem expectKind_eq_ok_iff {kind : Token.Kind} (visible : kind ≠ .eof) :
    expectKind kind tokens = .ok (token, rest) ↔ tokens = token :: rest ∧ token.kind = kind :=
  accept_eq_ok_iff (fun token => token.kind = kind) visible.symm _

theorem isOperator_iff {symbol : String} :
    isOperator symbol token = true ↔ token.Is .operator symbol := by
  simp only [isOperator, Bool.and_eq_true, decide_eq_true_eq]
  exact ⟨fun ⟨kind, text⟩ => ⟨kind, text⟩, fun same => ⟨same.kind, same.text⟩⟩

private theorem either_eq_some_iff (first second : BinaryOp) {op : BinaryOp}
    (distinct : first.symbol ≠ second.symbol) :
    (if token.kind ≠ .operator then none
      else if token.text = first.symbol then some first
      else if token.text = second.symbol then some second
      else none) = some op ↔ op ∈ [first, second] ∧ token.Is .operator op.symbol := by
  by_cases kind : token.kind = .operator
  · constructor
    · intro found
      simp only [kind, ne_eq, not_true_eq_false, if_false] at found
      split at found
      · rename_i same
        cases found
        exact ⟨by simp, kind, same⟩
      · split at found
        · rename_i same
          cases found
          exact ⟨by simp, kind, same⟩
        · cases found
    · rintro ⟨member, same⟩
      simp only [List.mem_cons, List.not_mem_nil, or_false] at member
      rcases member with rfl | rfl
      · simp [kind, same.text]
      · simp [kind, same.text, distinct.symm]
  · simp only [ne_eq, kind, not_false_eq_true, if_true, reduceCtorEq, false_iff]
    exact fun ⟨_, same⟩ => kind same.kind

theorem sumOperator?_eq_some_iff {op : BinaryOp} :
    sumOperator? token = some op ↔
      op ∈ Level.sum.operators ∧ token.Is .operator op.symbol :=
  either_eq_some_iff .add .sub (by decide)

theorem productOperator?_eq_some_iff {op : BinaryOp} :
    productOperator? token = some op ↔
      op ∈ Level.product.operators ∧ token.Is .operator op.symbol :=
  either_eq_some_iff .mul .div (by decide)

def read (size : Nat) : Level → Nat → List Token → Outcome Expr
  | .sum => sum size
  | .product => product size
  | .power => power size
  | .signed => signed size
  | .primary => primary size

end Reader

end Calculator

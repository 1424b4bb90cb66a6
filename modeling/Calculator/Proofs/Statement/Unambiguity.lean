import Calculator.Proofs.Statement.Grammar

namespace Calculator.Grammar

open Reader (peek)

theorem Arguments.opens {tokens : List Token} {args : List Expr} (list : Arguments tokens args) :
    ∃ token rest, tokens = token :: rest ∧ token.Is .punctuation "(" := by
  cases list with
  | none opening _ => exact ⟨_, _, rfl, opening⟩
  | some opening _ _ => exact ⟨_, _, rfl, opening⟩

theorem Items.opens {tokens : List Token} {exprs : List Expr} (items : Items tokens exprs) :
    ∃ token rest, tokens = token :: rest ∧ Opens token := by
  cases items with
  | last item => exact item.opens
  | more first _ _ =>
    obtain ⟨token, rest, rfl, opens⟩ := first.opens
    exact ⟨token, _, rfl, opens⟩

/-- A list of arguments is closed where no argument can start. -/
theorem Opens.not_closing {token : Token} (opens : Opens token) : ¬token.Is .punctuation ")" := by
  intro closing
  cases opens with
  | number kind => cases kind.symm.trans closing.kind
  | word kind => cases kind.symm.trans closing.kind
  | grouped opening => exact absurd (opening.same closing).2 (by decide)
  | negated minus => cases (minus.same closing).1

private theorem cons_append_inj {token other : Token} {tokens others rest after : List Token}
    (same : token :: tokens ++ rest = other :: others ++ after) :
    token = other ∧ tokens ++ rest = others ++ after :=
  List.cons.inj same

private theorem op_eq_of_is {level : Level} {token : Token} {op other : BinaryOp}
    (member : op ∈ level.operators) (sign : token.Is .operator op.symbol)
    (member' : other ∈ level.operators) (sign' : token.Is .operator other.symbol) : op = other := by
  have distinct (level : Level) : ∀ op ∈ level.operators, ∀ other ∈ level.operators,
      op.symbol = other.symbol → op = other := by
    cases level <;> decide
  exact distinct level op member other member' (sign.same sign').2

mutual

theorem Derives.unique {level : Level} {tokens others rest after : List Token} {expr expr' : Expr} :
    Derives level tokens expr → Derives level others expr' → tokens ++ rest = others ++ after →
      level.EndsAt (peek rest) → level.EndsAt (peek after) → expr = expr' ∧ rest = after
  | .sum first joined, second, same, ends, ends' => by
    cases second with
    | sum first' joined' =>
      rw [List.append_assoc, List.append_assoc] at same
      obtain ⟨rfl, same⟩ := first.unique first' same (joined.endsAt ends) (joined'.endsAt ends')
      exact joined.unique joined' same ends ends'
  | .product first joined, second, same, ends, ends' => by
    cases second with
    | product first' joined' =>
      rw [List.append_assoc, List.append_assoc] at same
      obtain ⟨rfl, same⟩ := first.unique first' same (joined.endsAt ends) (joined'.endsAt ends')
      exact joined.unique joined' same ends ends'
  | .operand signed, second, same, ends, ends' => by
    cases second with
    | operand signed' =>
      exact signed.unique signed' same (ends.mono Level.power.absorbed_tighter)
        (ends'.mono Level.power.absorbed_tighter)
    | raised base' sign' exponent' =>
      -- the first derivation would stop before a sign that its level goes on with
      rw [List.append_assoc] at same
      obtain ⟨-, rfl⟩ := signed.unique base' same (ends.mono Level.power.absorbed_tighter)
        (.of_operator sign' (by decide))
      exact absurd sign' (ends.operator .pow (by decide))
  | .raised base sign exponent, second, same, ends, ends' => by
    rw [List.append_assoc] at same
    cases second with
    | operand signed' =>
      obtain ⟨-, rfl⟩ := base.unique signed' same (.of_operator sign (by decide))
        (ends'.mono Level.power.absorbed_tighter)
      exact absurd sign (ends'.operator .pow (by decide))
    | raised base' sign' exponent' =>
      rw [List.append_assoc] at same
      obtain ⟨rfl, same⟩ := base.unique base' same (.of_operator sign (by decide))
        (.of_operator sign' (by decide))
      obtain ⟨rfl, tail⟩ := cons_append_inj same
      obtain ⟨rfl, rfl⟩ := exponent.unique exponent' tail ends ends'
      exact ⟨rfl, rfl⟩
  | .negated sign operand, second, same, ends, ends' => by
    cases second with
    | negated sign' operand' =>
      obtain ⟨rfl, tail⟩ := cons_append_inj same
      obtain ⟨rfl, rfl⟩ := operand.unique operand' tail ends ends'
      exact ⟨rfl, rfl⟩
    | unsigned primary' =>
      obtain ⟨token, more, rfl, other⟩ := primary'.primary_opens
      obtain ⟨rfl, -⟩ := cons_append_inj same
      exact absurd sign.kind other
  | .unsigned primary, second, same, ends, ends' => by
    cases second with
    | negated sign' operand' =>
      obtain ⟨token, more, rfl, other⟩ := primary.primary_opens
      obtain ⟨rfl, -⟩ := cons_append_inj same
      exact absurd sign'.kind other
    | unsigned primary' =>
      exact primary.unique primary' same (ends.mono Level.signed.absorbed_tighter)
        (ends'.mono Level.signed.absorbed_tighter)
  | .number kind, second, same, ends, ends' => by
    cases second with
    | number kind' =>
      obtain ⟨rfl, tail⟩ := cons_append_inj same
      exact ⟨rfl, tail⟩
    | call kind' _ | name kind' =>
      obtain ⟨rfl, -⟩ := cons_append_inj same
      cases kind.symm.trans kind'
    | grouped opening' _ _ =>
      obtain ⟨rfl, -⟩ := cons_append_inj same
      cases kind.symm.trans opening'.kind
  | .call kind args, second, same, ends, ends' => by
    cases second with
    | number kind' =>
      obtain ⟨rfl, -⟩ := cons_append_inj same
      cases kind.symm.trans kind'
    | call kind' args' =>
      obtain ⟨rfl, tail⟩ := cons_append_inj same
      obtain ⟨rfl, rfl⟩ := args.unique args' tail
      exact ⟨rfl, rfl⟩
    | name kind' =>
      -- a name does not end before the parenthesis of its own arguments
      obtain ⟨token, more, rfl, opening⟩ := args.opens
      obtain ⟨-, rfl⟩ := cons_append_inj same
      exact absurd opening ends'.call
    | grouped opening' _ _ =>
      obtain ⟨rfl, -⟩ := cons_append_inj same
      cases kind.symm.trans opening'.kind
  | .name kind, second, same, ends, ends' => by
    cases second with
    | number kind' =>
      obtain ⟨rfl, -⟩ := cons_append_inj same
      cases kind.symm.trans kind'
    | call kind' args' =>
      obtain ⟨token, more, rfl, opening⟩ := args'.opens
      obtain ⟨-, rfl⟩ := cons_append_inj same
      exact absurd opening ends.call
    | name kind' =>
      obtain ⟨rfl, tail⟩ := cons_append_inj same
      exact ⟨rfl, tail⟩
    | grouped opening' _ _ =>
      obtain ⟨rfl, -⟩ := cons_append_inj same
      cases kind.symm.trans opening'.kind
  | .grouped opening inner closing, second, same, ends, ends' => by
    cases second with
    | number kind' | call kind' _ | name kind' =>
      obtain ⟨rfl, -⟩ := cons_append_inj same
      cases opening.kind.symm.trans kind'
    | grouped opening' inner' closing' =>
      obtain ⟨rfl, tail⟩ := cons_append_inj same
      rw [List.append_assoc, List.append_assoc] at tail
      obtain ⟨rfl, closed⟩ := inner.unique inner' tail (.punctuation closing (by decide))
        (.punctuation closing' (by decide))
      exact ⟨rfl, (cons_append_inj closed).2⟩
termination_by structural derivation => derivation

theorem Joined.unique {level : Level} {left expr expr' : Expr}
    {tokens others rest after : List Token} :
    Joined level left tokens expr → Joined level left others expr' →
      tokens ++ rest = others ++ after → level.EndsAt (peek rest) → level.EndsAt (peek after) →
      expr = expr' ∧ rest = after
  | .done, second, same, ends, ends' => by
    cases second with
    | done => exact ⟨rfl, same⟩
    | join member' sign' _ _ =>
      subst same
      exact absurd sign' (ends.operator _ (level.absorbed_of_operators _ member'))
  | .join member sign operand joined, second, same, ends, ends' => by
    cases second with
    | done =>
      subst same
      exact absurd sign (ends'.operator _ (level.absorbed_of_operators _ member))
    | join member' sign' operand' joined' =>
      obtain ⟨rfl, tail⟩ := cons_append_inj same
      obtain rfl := op_eq_of_is member sign member' sign'
      rw [List.append_assoc, List.append_assoc] at tail
      obtain ⟨rfl, further⟩ :=
        operand.unique operand' tail (joined.endsAt ends) (joined'.endsAt ends')
      exact joined.unique joined' further ends ends'
termination_by structural derivation => derivation

theorem Arguments.unique {tokens others rest after : List Token} {args args' : List Expr} :
    Arguments tokens args → Arguments others args' → tokens ++ rest = others ++ after →
      args = args' ∧ rest = after
  | .none opening closing, second, same => by
    cases second with
    | none opening' closing' =>
      obtain ⟨-, tail⟩ := cons_append_inj same
      exact ⟨rfl, (cons_append_inj tail).2⟩
    | some opening' items' closing' =>
      obtain ⟨token, more, rfl, opens⟩ := items'.opens
      obtain ⟨-, tail⟩ := cons_append_inj same
      obtain ⟨rfl, -⟩ := cons_append_inj tail
      exact absurd closing opens.not_closing
  | .some opening items closing, second, same => by
    cases second with
    | none opening' closing' =>
      obtain ⟨token, more, rfl, opens⟩ := items.opens
      obtain ⟨-, tail⟩ := cons_append_inj same
      obtain ⟨rfl, -⟩ := cons_append_inj tail
      exact absurd closing' opens.not_closing
    | some opening' items' closing' =>
      obtain ⟨-, tail⟩ := cons_append_inj same
      rw [List.append_assoc, List.append_assoc] at tail
      obtain ⟨rfl, closed⟩ := items.unique items' tail closing closing'
      exact ⟨rfl, (cons_append_inj closed).2⟩
termination_by structural derivation => derivation

theorem Items.unique {tokens others rest after : List Token} {exprs exprs' : List Expr} :
    Items tokens exprs → Items others exprs' → tokens ++ rest = others ++ after →
      (peek rest).Is .punctuation ")" → (peek after).Is .punctuation ")" →
      exprs = exprs' ∧ rest = after
  | .last item, second, same, closing, closing' => by
    have ends : Level.sum.EndsAt (peek rest) := .punctuation closing (by decide)
    cases second with
    | last item' =>
      obtain ⟨rfl, rfl⟩ := item.unique item' same ends (.punctuation closing' (by decide))
      exact ⟨rfl, rfl⟩
    | more first' comma' items' =>
      rw [List.append_assoc] at same
      obtain ⟨-, rfl⟩ := item.unique first' same ends (.punctuation comma' (by decide))
      exact absurd (comma'.same closing).2 (by decide)
  | .more first comma items, second, same, closing, closing' => by
    rw [List.append_assoc] at same
    cases second with
    | last item' =>
      obtain ⟨-, rfl⟩ := first.unique item' same (.punctuation comma (by decide))
        (.punctuation closing' (by decide))
      exact absurd (comma.same closing').2 (by decide)
    | more first' comma' items' =>
      rw [List.append_assoc] at same
      obtain ⟨rfl, further⟩ := first.unique first' same (.punctuation comma (by decide))
        (.punctuation comma' (by decide))
      obtain ⟨rfl, tail⟩ := cons_append_inj further
      obtain ⟨rfl, rfl⟩ := items.unique items' tail closing closing'
      exact ⟨rfl, rfl⟩
termination_by structural derivation => derivation

end

/-- An expression that takes up all tokens is the only one. -/
theorem Derives.unique_whole {level : Level} {tokens : List Token} {expr expr' : Expr}
    (first : Derives level tokens expr) (second : Derives level tokens expr') : expr = expr' := by
  have ends : level.EndsAt (peek []) := .of_kind (by decide) fun call => nomatch call.kind
  exact (first.unique second rfl ends ends).1

theorem Opens.not_keyword {token : Token} (opens : Opens token) (text : String) :
    ¬token.Is .keyword text := by
  intro keyword
  cases opens with
  | number kind => cases kind.symm.trans keyword.kind
  | word kind => cases kind.symm.trans keyword.kind
  | grouped opening => cases (opening.same keyword).1
  | negated minus => cases (minus.same keyword).1

/-- Tokens are one statement at most. -/
theorem Sentence.unique {tokens : List Token} {first second : Statement}
    (sentence : Sentence tokens first) (other : Sentence tokens second) : first = second := by
  cases sentence with
  | clause opening name params equals body =>
    generalize same : _ :: _ = others at other
    cases other with
    | clause opening' name' params' equals' body' =>
      obtain ⟨rfl, named⟩ := List.cons.inj same
      obtain ⟨rfl, listed⟩ := List.cons.inj named
      obtain ⟨rfl, equated⟩ := params.unique params' listed
      obtain ⟨-, rfl⟩ := List.cons.inj equated
      rw [body.unique_whole body']
    | constant opening' _ _ _ =>
      obtain ⟨rfl, -⟩ := List.cons.inj same
      exact absurd (opening.same opening').2 (by decide)
    | expression expr' =>
      obtain ⟨token, rest, rfl, opens⟩ := expr'.opens
      obtain ⟨rfl, -⟩ := List.cons.inj same
      exact absurd opening (opens.not_keyword _)
  | constant opening name equals value =>
    generalize same : _ :: _ = others at other
    cases other with
    | clause opening' _ _ _ _ =>
      obtain ⟨rfl, -⟩ := List.cons.inj same
      exact absurd (opening.same opening').2 (by decide)
    | constant opening' name' equals' value' =>
      cases same
      rw [value.unique_whole value']
    | expression expr' =>
      obtain ⟨token, rest, rfl, opens⟩ := expr'.opens
      obtain ⟨rfl, -⟩ := List.cons.inj same
      exact absurd opening (opens.not_keyword _)
  | expression expr =>
    obtain ⟨token, rest, rfl, opens⟩ := expr.opens
    cases other with
    | clause opening' _ _ _ _ => exact absurd opening' (opens.not_keyword _)
    | constant opening' _ _ _ => exact absurd opening' (opens.not_keyword _)
    | expression expr' => rw [expr.unique_whole expr']

end Calculator.Grammar

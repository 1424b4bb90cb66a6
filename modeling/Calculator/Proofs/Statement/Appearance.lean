import Calculator.Proofs.Statement.Grammar
import Calculator.Proofs.Token.Continuation

namespace Calculator

namespace Token

variable {token other : Token}

theorem kind_eq_of_look (same : other.look = token.look) : other.kind = token.kind :=
  congrArg Prod.fst same

theorem Is.of_look {kind : Kind} {text : String} (is : token.Is kind text)
    (same : other.look = token.look) : other.Is kind text :=
  ⟨(congrArg Prod.fst same).trans is.kind, (congrArg Prod.snd same).trans is.text⟩

end Token

namespace Grammar

mutual

theorem Derives.of_look {level : Level} {tokens others : List Token} {expr : Expr} :
    Derives level tokens expr → others.map Token.look = tokens.map Token.look →
      ∃ expr', Derives level others expr'
  | .sum first rest, same => by
    rw [List.map_append] at same
    obtain ⟨first', rest', rfl, firsts, rests⟩ := List.map_eq_append_iff.mp same
    obtain ⟨left, derived⟩ := first.of_look firsts
    obtain ⟨expr, joined⟩ := rest.of_look left rests
    exact ⟨expr, .sum derived joined⟩
  | .product first rest, same => by
    rw [List.map_append] at same
    obtain ⟨first', rest', rfl, firsts, rests⟩ := List.map_eq_append_iff.mp same
    obtain ⟨left, derived⟩ := first.of_look firsts
    obtain ⟨expr, joined⟩ := rest.of_look left rests
    exact ⟨expr, .product derived joined⟩
  | .operand signed, same => by
    obtain ⟨expr, derived⟩ := signed.of_look same
    exact ⟨expr, .operand derived⟩
  | .raised base sign exponent, same => by
    rw [List.map_append, List.map_cons] at same
    obtain ⟨base', rest', rfl, bases, rests⟩ := List.map_eq_append_iff.mp same
    obtain ⟨token', exponent', rfl, signs, exponents⟩ := List.map_eq_cons_iff.mp rests
    obtain ⟨left, lower⟩ := base.of_look bases
    obtain ⟨right, upper⟩ := exponent.of_look exponents
    exact ⟨_, .raised lower (sign.of_look signs) upper⟩
  | .negated minus operand, same => by
    obtain ⟨token', rest', rfl, signs, rests⟩ := List.map_eq_cons_iff.mp same
    obtain ⟨expr, derived⟩ := operand.of_look rests
    exact ⟨_, .negated (minus.of_look signs) derived⟩
  | .unsigned primary, same => by
    obtain ⟨expr, derived⟩ := primary.of_look same
    exact ⟨expr, .unsigned derived⟩
  | .number kind, same => by
    obtain ⟨token', rest', rfl, looks, rests⟩ := List.map_eq_cons_iff.mp same
    obtain rfl := List.map_eq_nil_iff.mp rests
    exact ⟨_, .number ((Token.kind_eq_of_look looks).trans kind)⟩
  | .call kind args, same => by
    obtain ⟨token', rest', rfl, looks, rests⟩ := List.map_eq_cons_iff.mp same
    obtain ⟨exprs, list⟩ := args.of_look rests
    exact ⟨_, .call ((Token.kind_eq_of_look looks).trans kind) list⟩
  | .name kind, same => by
    obtain ⟨token', rest', rfl, looks, rests⟩ := List.map_eq_cons_iff.mp same
    obtain rfl := List.map_eq_nil_iff.mp rests
    exact ⟨_, .name ((Token.kind_eq_of_look looks).trans kind)⟩
  | .grouped opening inner closing, same => by
    rw [List.map_cons, List.map_append] at same
    obtain ⟨opening', rest', rfl, opens, rests⟩ := List.map_eq_cons_iff.mp same
    obtain ⟨inner', last', rfl, inners, lasts⟩ := List.map_eq_append_iff.mp rests
    obtain ⟨closing', after', rfl, closes, afters⟩ := List.map_eq_cons_iff.mp lasts
    obtain rfl := List.map_eq_nil_iff.mp afters
    obtain ⟨expr, derived⟩ := inner.of_look inners
    exact ⟨expr, .grouped (opening.of_look opens) derived (closing.of_look closes)⟩
termination_by structural derivation => derivation

theorem Joined.of_look {level : Level} {left expr : Expr} {tokens others : List Token} :
    Joined level left tokens expr → ∀ left', others.map Token.look = tokens.map Token.look →
      ∃ expr', Joined level left' others expr'
  | .done, left', same => by
    obtain rfl := List.map_eq_nil_iff.mp same
    exact ⟨left', .done⟩
  | .join member sign operand rest, left', same => by
    rw [List.map_cons, List.map_append] at same
    obtain ⟨token', after', rfl, signs, afters⟩ := List.map_eq_cons_iff.mp same
    obtain ⟨operand', rest', rfl, operands, rests⟩ := List.map_eq_append_iff.mp afters
    obtain ⟨right, derived⟩ := operand.of_look operands
    obtain ⟨expr, joined⟩ := rest.of_look _ rests
    exact ⟨expr, .join member (sign.of_look signs) derived joined⟩
termination_by structural derivation => derivation

theorem Arguments.of_look {tokens others : List Token} {args : List Expr} :
    Arguments tokens args → others.map Token.look = tokens.map Token.look →
      ∃ args', Arguments others args'
  | .none opening closing, same => by
    obtain ⟨opening', rest', rfl, opens, rests⟩ := List.map_eq_cons_iff.mp same
    obtain ⟨closing', after', rfl, closes, afters⟩ := List.map_eq_cons_iff.mp rests
    obtain rfl := List.map_eq_nil_iff.mp afters
    exact ⟨[], .none (opening.of_look opens) (closing.of_look closes)⟩
  | .some opening items closing, same => by
    rw [List.map_cons, List.map_append] at same
    obtain ⟨opening', rest', rfl, opens, rests⟩ := List.map_eq_cons_iff.mp same
    obtain ⟨items', last', rfl, listed, lasts⟩ := List.map_eq_append_iff.mp rests
    obtain ⟨closing', after', rfl, closes, afters⟩ := List.map_eq_cons_iff.mp lasts
    obtain rfl := List.map_eq_nil_iff.mp afters
    obtain ⟨args, list⟩ := items.of_look listed
    exact ⟨args, .some (opening.of_look opens) list (closing.of_look closes)⟩
termination_by structural derivation => derivation

theorem Items.of_look {tokens others : List Token} {exprs : List Expr} :
    Items tokens exprs → others.map Token.look = tokens.map Token.look →
      ∃ exprs', Items others exprs'
  | .last item, same => by
    obtain ⟨expr, derived⟩ := item.of_look same
    exact ⟨[expr], .last derived⟩
  | .more first comma items, same => by
    rw [List.map_append, List.map_cons] at same
    obtain ⟨first', rest', rfl, firsts, rests⟩ := List.map_eq_append_iff.mp same
    obtain ⟨comma', items', rfl, commas, listed⟩ := List.map_eq_cons_iff.mp rests
    obtain ⟨expr, derived⟩ := first.of_look firsts
    obtain ⟨exprs, list⟩ := items.of_look listed
    exact ⟨expr :: exprs, .more derived (comma.of_look commas) list⟩
termination_by structural derivation => derivation

end

theorem Sentence.of_look {tokens others : List Token} {statement : Statement}
    (sentence : Sentence tokens statement) (same : others.map Token.look = tokens.map Token.look) :
    ∃ statement', Sentence others statement' := by
  cases sentence with
  | clause opening name params equals body =>
    simp only [List.map_cons, List.map_append] at same
    obtain ⟨opening', rest', rfl, opens, rests⟩ := List.map_eq_cons_iff.mp same
    obtain ⟨name', after', rfl, names, afters⟩ := List.map_eq_cons_iff.mp rests
    obtain ⟨params', last', rfl, listed, lasts⟩ := List.map_eq_append_iff.mp afters
    obtain ⟨equals', body', rfl, signs, bodies⟩ := List.map_eq_cons_iff.mp lasts
    obtain ⟨args, list⟩ := params.of_look listed
    obtain ⟨expr, derived⟩ := body.of_look bodies
    exact ⟨_, .clause (opening.of_look opens) ((Token.kind_eq_of_look names).trans name) list
      (equals.of_look signs) derived⟩
  | constant opening name equals value =>
    simp only [List.map_cons] at same
    obtain ⟨opening', rest', rfl, opens, rests⟩ := List.map_eq_cons_iff.mp same
    obtain ⟨name', after', rfl, names, afters⟩ := List.map_eq_cons_iff.mp rests
    obtain ⟨equals', value', rfl, signs, values⟩ := List.map_eq_cons_iff.mp afters
    obtain ⟨expr, derived⟩ := value.of_look values
    exact ⟨_, .constant (opening.of_look opens) ((Token.kind_eq_of_look names).trans name)
      (equals.of_look signs) derived⟩
  | expression expr =>
    obtain ⟨expr', derived⟩ := expr.of_look same
    exact ⟨_, .expression derived⟩

end Grammar

end Calculator

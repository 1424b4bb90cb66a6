import Calculator.Proofs.Statement.Recognition

namespace Calculator

def BinaryOp.Known : BinaryOp → Prop
  | .other _ => False
  | _ => True

/-- Every operator in the tree can be applied, and every node is of a kind that has a value. -/
inductive Expr.Meaningful : Expr → Prop where
  | number {value : Binary64} {pos : Option Nat} : Meaningful (.number value pos)
  | var {name : String} {pos : Option Nat} : Meaningful (.var name pos)
  | binary {op : BinaryOp} {left right : Expr} {pos : Option Nat} :
    op.Known → Meaningful left → Meaningful right → Meaningful (.binary op left right pos)
  | neg {operand : Expr} {pos : Option Nat} :
    Meaningful operand → Meaningful (.unary .neg operand pos)
  | call {name : String} {args : List Expr} {pos : Option Nat} :
    (∀ arg ∈ args, Meaningful arg) → Meaningful (.call name args pos)

def Statement.Meaningful : Statement → Prop
  | .clause _ params body _ => (∀ param ∈ params, param.Meaningful) ∧ body.Meaningful
  | .constant _ value _ => value.Meaningful
  | .expression expr => expr.Meaningful

namespace Grammar

theorem Level.known_of_mem_operators {level : Level} {op : BinaryOp}
    (member : op ∈ level.operators) : op.Known := by
  cases level <;> cases op <;> simp_all [Level.operators, BinaryOp.Known]

mutual

theorem Derives.meaningful {level : Level} {tokens : List Token} {expr : Expr} :
    Derives level tokens expr → expr.Meaningful
  | .sum first rest => rest.meaningful first.meaningful
  | .product first rest => rest.meaningful first.meaningful
  | .operand signed => signed.meaningful
  | .raised base _ exponent => .binary trivial base.meaningful exponent.meaningful
  | .negated _ operand => .neg operand.meaningful
  | .unsigned primary => primary.meaningful
  | .number _ => .number
  | .call _ args => .call args.meaningful
  | .name _ => .var
  | .grouped _ inner _ => inner.meaningful

theorem Joined.meaningful {level : Level} {left expr : Expr} {tokens : List Token} :
    Joined level left tokens expr → left.Meaningful → expr.Meaningful
  | .done, joined => joined
  | .join member _ operand rest, joined =>
    rest.meaningful (.binary (Level.known_of_mem_operators member) joined operand.meaningful)

theorem Arguments.meaningful {tokens : List Token} {args : List Expr} :
    Arguments tokens args → ∀ arg ∈ args, arg.Meaningful
  | .none _ _ => List.forall_mem_nil _
  | .some _ items _ => items.meaningful

theorem Items.meaningful {tokens : List Token} {exprs : List Expr} :
    Items tokens exprs → ∀ expr ∈ exprs, expr.Meaningful
  | .last item => List.forall_mem_singleton.mpr item.meaningful
  | .more first _ rest => List.forall_mem_cons.mpr ⟨first.meaningful, rest.meaningful⟩

end

theorem Sentence.meaningful {tokens : List Token} {statement : Statement}
    (sentence : Sentence tokens statement) : statement.Meaningful := by
  cases sentence with
  | clause _ _ params _ body => exact ⟨params.meaningful, body.meaningful⟩
  | constant _ _ _ value => exact value.meaningful
  | expression expr => exact expr.meaningful

end Grammar

theorem Statement.read_meaningful {frames : Nat} {text : String} {statement : Statement}
    (read : Statement.read frames text = .ok (some statement)) : statement.Meaningful := by
  obtain ⟨body, ending, -, -, sentence⟩ := Statement.exists_sentence_of_read read
  exact sentence.meaningful

end Calculator

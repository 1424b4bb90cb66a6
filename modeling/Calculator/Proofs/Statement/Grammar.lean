import Calculator.Statement.Reader

/-! The grammar of statements. Each rule says which tokens an expression or a statement may consist
of and which tree they stand for; a rule looks at the kinds and texts of its tokens and does not
care how they are found.

    sum       ::= product (("+" | "-") product)*
    product   ::= power (("*" | "/") power)*
    power     ::= signed ("^" power)?
    signed    ::= "-" signed | primary
    primary   ::= NUMBER | WORD arguments | WORD | "(" sum ")"
    arguments ::= "(" (sum ("," sum)*)? ")"
    statement ::= "let" WORD arguments "=" sum | "const" WORD "=" sum | sum
-/

namespace Calculator

/-- The token has the given kind and text. -/
structure Token.Is (token : Token) (kind : Token.Kind) (text : String) : Prop where
  kind : token.kind = kind
  text : token.text = text

theorem Token.Is.same {token : Token} {kind kind' : Token.Kind} {text text' : String}
    (first : token.Is kind text) (second : token.Is kind' text') : kind = kind' ∧ text = text' :=
  ⟨first.kind.symm.trans second.kind, first.text.symm.trans second.text⟩

namespace Grammar

/-- How tightly an expression holds together, from the loosest level on. -/
inductive Level where
  | sum
  | product
  | power
  | signed
  | primary
deriving DecidableEq

namespace Level

/-- The operators of a level whose operands are joined from left to right. -/
def operators : Level → List BinaryOp
  | .sum => [.add, .sub]
  | .product => [.mul, .div]
  | _ => []

def tighter : Level → Level
  | .sum => .product
  | .product => .power
  | .power => .signed
  | .signed => .primary
  | .primary => .primary

end Level

mutual

/-- The tokens are an expression of the level, and the expression is their tree. -/
inductive Derives : Level → List Token → Expr → Prop where
  | sum {first rest : List Token} {left expr : Expr} :
    Derives .product first left → Joined .sum left rest expr → Derives .sum (first ++ rest) expr
  | product {first rest : List Token} {left expr : Expr} :
    Derives .power first left → Joined .product left rest expr →
      Derives .product (first ++ rest) expr
  | operand {tokens : List Token} {expr : Expr} :
    Derives .signed tokens expr → Derives .power tokens expr
  | raised {base exponent : List Token} {token : Token} {left right : Expr} :
    Derives .signed base left → token.Is .operator "^" → Derives .power exponent right →
      Derives .power (base ++ token :: exponent) (.binary .pow left right (some token.pos))
  | negated {token : Token} {tokens : List Token} {expr : Expr} :
    token.Is .operator "-" → Derives .signed tokens expr →
      Derives .signed (token :: tokens) (.unary .neg expr (some token.pos))
  | unsigned {tokens : List Token} {expr : Expr} :
    Derives .primary tokens expr → Derives .signed tokens expr
  | number {token : Token} :
    token.kind = .number →
      Derives .primary [token] (.number (Reader.literal token.text) (some token.pos))
  | call {token : Token} {tokens : List Token} {args : List Expr} :
    token.kind = .word → Arguments tokens args →
      Derives .primary (token :: tokens) (.call token.text args (some token.pos))
  | name {token : Token} :
    token.kind = .word → Derives .primary [token] (.var token.text (some token.pos))
  | grouped {opening closing : Token} {tokens : List Token} {expr : Expr} :
    opening.Is .punctuation "(" → Derives .sum tokens expr → closing.Is .punctuation ")" →
      Derives .primary (opening :: (tokens ++ [closing])) expr

/-- The tokens join further operands of the level to an expression, from left to right. -/
inductive Joined : Level → Expr → List Token → Expr → Prop where
  | done {level : Level} {left : Expr} : Joined level left [] left
  | join {level : Level} {token : Token} {operand rest : List Token} {left right expr : Expr}
      {op : BinaryOp} :
    op ∈ level.operators → token.Is .operator op.symbol → Derives level.tighter operand right →
      Joined level (.binary op left right (some token.pos)) rest expr →
      Joined level left (token :: (operand ++ rest)) expr

/-- The tokens are a list of arguments in parentheses. -/
inductive Arguments : List Token → List Expr → Prop where
  | none {opening closing : Token} :
    opening.Is .punctuation "(" → closing.Is .punctuation ")" → Arguments [opening, closing] []
  | some {opening closing : Token} {tokens : List Token} {args : List Expr} :
    opening.Is .punctuation "(" → Items tokens args → closing.Is .punctuation ")" →
      Arguments (opening :: (tokens ++ [closing])) args

/-- The tokens are one or more sums with commas between them. -/
inductive Items : List Token → List Expr → Prop where
  | last {tokens : List Token} {expr : Expr} : Derives .sum tokens expr → Items tokens [expr]
  | more {first rest : List Token} {comma : Token} {expr : Expr} {exprs : List Expr} :
    Derives .sum first expr → comma.Is .punctuation "," → Items rest exprs →
      Items (first ++ comma :: rest) (expr :: exprs)

end

/-- The tokens are a statement, and the statement is their tree. -/
inductive Sentence : List Token → Statement → Prop where
  | clause {opening name equals : Token} {list tokens : List Token} {params : List Expr}
      {body : Expr} :
    opening.Is .keyword "let" → name.kind = .word → Arguments list params →
      equals.Is .punctuation "=" → Derives .sum tokens body →
      Sentence (opening :: name :: (list ++ equals :: tokens))
        (.clause name.text params body (some opening.pos))
  | constant {opening name equals : Token} {tokens : List Token} {value : Expr} :
    opening.Is .keyword "const" → name.kind = .word → equals.Is .punctuation "=" →
      Derives .sum tokens value →
      Sentence (opening :: name :: equals :: tokens)
        (.constant name.text value (some opening.pos))
  | expression {tokens : List Token} {expr : Expr} :
    Derives .sum tokens expr → Sentence tokens (.expression expr)

/-- An expression can start with the token. -/
inductive Opens (token : Token) : Prop where
  | number : token.kind = .number → Opens token
  | word : token.kind = .word → Opens token
  | grouped : token.Is .punctuation "(" → Opens token
  | negated : token.Is .operator "-" → Opens token

theorem Derives.opens {level : Level} {tokens : List Token} {expr : Expr} :
    Derives level tokens expr → ∃ token rest, tokens = token :: rest ∧ Opens token
  | .sum first _ => by
    obtain ⟨token, rest, rfl, opens⟩ := first.opens
    exact ⟨token, _, rfl, opens⟩
  | .product first _ => by
    obtain ⟨token, rest, rfl, opens⟩ := first.opens
    exact ⟨token, _, rfl, opens⟩
  | .operand signed => signed.opens
  | .raised base _ _ => by
    obtain ⟨token, rest, rfl, opens⟩ := base.opens
    exact ⟨token, _, rfl, opens⟩
  | .negated minus _ => ⟨_, _, rfl, .negated minus⟩
  | .unsigned primary => primary.opens
  | .number kind => ⟨_, _, rfl, .number kind⟩
  | .call kind _ => ⟨_, _, rfl, .word kind⟩
  | .name kind => ⟨_, _, rfl, .word kind⟩
  | .grouped opening _ _ => ⟨_, _, rfl, .grouped opening⟩

theorem Derives.primary_opens {tokens : List Token} {expr : Expr}
    (derivation : Derives .primary tokens expr) :
    ∃ token rest, tokens = token :: rest ∧ token.kind ≠ .operator := by
  cases derivation with
  | number kind => exact ⟨_, _, rfl, by simp [kind]⟩
  | call kind _ => exact ⟨_, _, rfl, by simp [kind]⟩
  | name kind => exact ⟨_, _, rfl, by simp [kind]⟩
  | grouped opening _ _ => exact ⟨_, _, rfl, by simp [opening.kind]⟩

namespace Level

/-- The operators that an expression of the level goes on with when it can. -/
def absorbed : Level → List BinaryOp
  | .sum => [.add, .sub, .mul, .div, .pow]
  | .product => [.mul, .div, .pow]
  | .power => [.pow]
  | .signed => []
  | .primary => []

/-- No expression of the level goes on with the token: it is none of its operators, and it does not
make a call of a name. -/
structure EndsAt (level : Level) (token : Token) : Prop where
  call : ¬token.Is .punctuation "("
  operator : ∀ op ∈ level.absorbed, ¬token.Is .operator op.symbol

namespace EndsAt

theorem mono {level tighter : Level} {token : Token} (ends : level.EndsAt token)
    (fewer : ∀ op ∈ tighter.absorbed, op ∈ level.absorbed) : tighter.EndsAt token :=
  ⟨ends.call, fun op member => ends.operator op (fewer op member)⟩

theorem of_kind {level : Level} {token : Token} (operator : token.kind ≠ .operator)
    (call : ¬token.Is .punctuation "(") : level.EndsAt token :=
  ⟨call, fun _ _ same => operator same.kind⟩

theorem punctuation {level : Level} {token : Token} {text : String}
    (mark : token.Is .punctuation text) (other : text ≠ "(") : level.EndsAt token :=
  of_kind (by simp [mark.kind]) fun call => other (mark.same call).2

theorem of_operator {level : Level} {token : Token} {symbol : String}
    (sign : token.Is .operator symbol) (other : ∀ op ∈ level.absorbed, op.symbol ≠ symbol) :
    level.EndsAt token := by
  constructor
  · intro call
    cases (sign.same call).1
  · intro op member absorbed
    exact other op member (absorbed.same sign).2

end EndsAt

theorem absorbed_of_operators (level : Level) : ∀ op ∈ level.operators, op ∈ level.absorbed := by
  cases level <;> decide

theorem absorbed_tighter (level : Level) : ∀ op ∈ level.tighter.absorbed, op ∈ level.absorbed := by
  cases level <;> decide

theorem symbol_ne_of_absorbed_tighter (level : Level) :
    ∀ op ∈ level.operators, ∀ other ∈ level.tighter.absorbed, other.symbol ≠ op.symbol := by
  cases level <;> decide

end Level

/-- An operand ends where the next one is joined to it, or where its level ends. -/
theorem Joined.endsAt {level : Level} {left expr : Expr} {tokens rest : List Token}
    (joined : Joined level left tokens expr) (ends : level.EndsAt (Reader.peek rest)) :
    level.tighter.EndsAt (Reader.peek (tokens ++ rest)) := by
  cases joined with
  | done => exact ends.mono level.absorbed_tighter
  | join member sign _ _ =>
    exact .of_operator sign (level.symbol_ne_of_absorbed_tighter _ member)

mutual

theorem Derives.ne_eof {level : Level} {tokens : List Token} {expr : Expr} :
    Derives level tokens expr → ∀ token ∈ tokens, token.kind ≠ .eof
  | .sum first rest => List.forall_mem_append.mpr ⟨first.ne_eof, rest.ne_eof⟩
  | .product first rest => List.forall_mem_append.mpr ⟨first.ne_eof, rest.ne_eof⟩
  | .operand signed => signed.ne_eof
  | .raised base sign exponent =>
    List.forall_mem_append.mpr ⟨base.ne_eof,
      List.forall_mem_cons.mpr ⟨by simp [sign.kind], exponent.ne_eof⟩⟩
  | .negated sign operand => List.forall_mem_cons.mpr ⟨by simp [sign.kind], operand.ne_eof⟩
  | .unsigned primary => primary.ne_eof
  | .number kind => List.forall_mem_singleton.mpr (by simp [kind])
  | .call kind args => List.forall_mem_cons.mpr ⟨by simp [kind], args.ne_eof⟩
  | .name kind => List.forall_mem_singleton.mpr (by simp [kind])
  | .grouped opening inner closing =>
    List.forall_mem_cons.mpr ⟨by simp [opening.kind],
      List.forall_mem_append.mpr ⟨inner.ne_eof,
        List.forall_mem_singleton.mpr (by simp [closing.kind])⟩⟩

theorem Joined.ne_eof {level : Level} {left expr : Expr} {tokens : List Token} :
    Joined level left tokens expr → ∀ token ∈ tokens, token.kind ≠ .eof
  | .done => List.forall_mem_nil _
  | .join _ sign operand rest =>
    List.forall_mem_cons.mpr ⟨by simp [sign.kind],
      List.forall_mem_append.mpr ⟨operand.ne_eof, rest.ne_eof⟩⟩

theorem Arguments.ne_eof {tokens : List Token} {args : List Expr} :
    Arguments tokens args → ∀ token ∈ tokens, token.kind ≠ .eof
  | .none opening closing =>
    List.forall_mem_cons.mpr ⟨by simp [opening.kind],
      List.forall_mem_singleton.mpr (by simp [closing.kind])⟩
  | .some opening items closing =>
    List.forall_mem_cons.mpr ⟨by simp [opening.kind],
      List.forall_mem_append.mpr ⟨items.ne_eof,
        List.forall_mem_singleton.mpr (by simp [closing.kind])⟩⟩

theorem Items.ne_eof {tokens : List Token} {exprs : List Expr} :
    Items tokens exprs → ∀ token ∈ tokens, token.kind ≠ .eof
  | .last item => item.ne_eof
  | .more first comma rest =>
    List.forall_mem_append.mpr ⟨first.ne_eof,
      List.forall_mem_cons.mpr ⟨by simp [comma.kind], rest.ne_eof⟩⟩

end

theorem Sentence.exists_cons {tokens : List Token} {statement : Statement}
    (sentence : Sentence tokens statement) : ∃ token rest, tokens = token :: rest := by
  cases sentence with
  | clause => exact ⟨_, _, rfl⟩
  | constant => exact ⟨_, _, rfl⟩
  | expression expr =>
    obtain ⟨token, rest, same, -⟩ := expr.opens
    exact ⟨token, rest, same⟩

theorem Sentence.ne_eof {tokens : List Token} {statement : Statement}
    (sentence : Sentence tokens statement) : ∀ token ∈ tokens, token.kind ≠ .eof := by
  cases sentence with
  | clause opening name params equals body =>
    simp only [List.forall_mem_cons, List.forall_mem_append]
    refine ⟨by simp [opening.kind], by simp [name], params.ne_eof, ?_, body.ne_eof⟩
    simp [equals.kind]
  | constant opening name equals value =>
    simp only [List.forall_mem_cons]
    exact ⟨by simp [opening.kind], by simp [name], by simp [equals.kind], value.ne_eof⟩
  | expression expr => exact expr.ne_eof

end Grammar

end Calculator

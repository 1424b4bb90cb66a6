import Calculator.Proofs.Statement.Recognition
import Calculator.Proofs.Token.Munch

/-! The tokens of a statement and the nodes of its tree are the same things in the same order. Every
number, name and operator of a text is a node of the tree that the text is read as, at the place
that it has in the order of the tree and with the position that it has in the text; only parentheses
and the other marks of punctuation leave nothing behind. -/

namespace Calculator

/-- What a node says of its own token. -/
inductive Sign where
  | number (value : Binary64)
  | word (text : String)
  | operator (symbol : String)
  | keyword (text : String)
deriving DecidableEq

/-- The position and the content of a node's own token. -/
structure Mark where
  pos : Option Nat
  sign : Sign
deriving DecidableEq

/-- The content of a token: of a number the value that it spells, of any other token its text. -/
def Token.sign (token : Token) : Sign :=
  match token.kind with
  | .number => .number (Reader.literal token.text)
  | .operator => .operator token.text
  | .keyword => .keyword token.text
  | _ => .word token.text

def Token.mark (token : Token) : Mark :=
  ⟨some token.pos, token.sign⟩

mutual

/-- The marks of all nodes in the order of the tree: an operator stands between its operands or
before the only one, and the name of a function before the arguments. -/
def Expr.marks : Expr → List Mark
  | .number value pos => [⟨pos, .number value⟩]
  | .var name pos => [⟨pos, .word name⟩]
  | .binary op left right pos => left.marks ++ ⟨pos, .operator op.symbol⟩ :: right.marks
  | .unary op operand pos => ⟨pos, .operator op.symbol⟩ :: operand.marks
  | .call name args pos => ⟨pos, .word name⟩ :: Expr.marksAll args
  | .foreign _ _ => []

/-- The marks of expressions, one after the other. -/
def Expr.marksAll : List Expr → List Mark
  | [] => []
  | expr :: rest => expr.marks ++ Expr.marksAll rest

end

namespace Token

/-- The marks of the tokens of some kinds, in order. -/
def marksOf (kinds : List Kind) (tokens : List Token) : List Mark :=
  (tokens.filter (·.kind ∈ kinds)).map mark

variable {kinds : List Kind}

@[simp] theorem marksOf_nil : marksOf kinds [] = [] :=
  rfl

@[simp] theorem marksOf_append (first rest : List Token) :
    marksOf kinds (first ++ rest) = marksOf kinds first ++ marksOf kinds rest := by
  simp [marksOf]

theorem marksOf_cons_of_mem {token : Token} (counts : token.kind ∈ kinds) (rest : List Token) :
    marksOf kinds (token :: rest) = token.mark :: marksOf kinds rest := by
  simp [marksOf, counts]

theorem marksOf_cons_of_not_mem {token : Token} (other : token.kind ∉ kinds)
    (rest : List Token) : marksOf kinds (token :: rest) = marksOf kinds rest := by
  simp [marksOf, other]

/-- The kinds of which the tokens of an expression are nodes: punctuation is not among them. -/
structure Essential (kinds : List Kind) : Prop where
  number : .number ∈ kinds
  word : .word ∈ kinds
  operator : .operator ∈ kinds
  punctuation : .punctuation ∉ kinds

namespace Essential

variable (essential : Essential kinds) {token : Token}

include essential

theorem marksOf_number (kind : token.kind = .number) (rest : List Token) :
    marksOf kinds (token :: rest) =
      ⟨some token.pos, .number (Reader.literal token.text)⟩ :: marksOf kinds rest := by
  rw [marksOf_cons_of_mem (kind ▸ essential.number), mark, sign, kind]

theorem marksOf_word (kind : token.kind = .word) (rest : List Token) :
    marksOf kinds (token :: rest) = ⟨some token.pos, .word token.text⟩ :: marksOf kinds rest := by
  rw [marksOf_cons_of_mem (kind ▸ essential.word), mark, sign, kind]

theorem marksOf_operator {symbol : String} (is : token.Is .operator symbol) (rest : List Token) :
    marksOf kinds (token :: rest) =
      ⟨some token.pos, .operator symbol⟩ :: marksOf kinds rest := by
  rw [marksOf_cons_of_mem (is.kind ▸ essential.operator), mark, sign, is.kind, is.text]

theorem marksOf_punctuation {text : String} (is : token.Is .punctuation text)
    (rest : List Token) : marksOf kinds (token :: rest) = marksOf kinds rest :=
  marksOf_cons_of_not_mem (is.kind ▸ essential.punctuation) rest

end Essential

end Token

namespace Grammar

open Token (marksOf Essential)

variable {kinds : List Token.Kind} (essential : Essential kinds)

include essential

mutual

/-- The tree of an expression has the marks of its tokens, in their order. -/
theorem Derives.marks {level : Level} {tokens : List Token} {expr : Expr} :
    Derives level tokens expr → expr.marks = marksOf kinds tokens
  | .sum first rest => by
    rw [Token.marksOf_append, rest.marks, first.marks]
  | .product first rest => by
    rw [Token.marksOf_append, rest.marks, first.marks]
  | .operand signed => signed.marks
  | .raised base sign exponent => by
    rw [Token.marksOf_append, essential.marksOf_operator sign, ← base.marks, ← exponent.marks]
    rfl
  | .negated sign operand => by
    rw [essential.marksOf_operator sign, ← operand.marks]
    rfl
  | .unsigned primary => primary.marks
  | .number kind => by
    rw [essential.marksOf_number kind]
    rfl
  | .call kind args => by
    rw [essential.marksOf_word kind, ← args.marks]
    rfl
  | .name kind => by
    rw [essential.marksOf_word kind]
    rfl
  | .grouped opening inner closing => by
    rw [essential.marksOf_punctuation opening, Token.marksOf_append,
      essential.marksOf_punctuation closing, Token.marksOf_nil, List.append_nil, inner.marks]

/-- What is joined from left to right comes behind what it is joined to. -/
theorem Joined.marks {level : Level} {left expr : Expr} {tokens : List Token} :
    Joined level left tokens expr → expr.marks = left.marks ++ marksOf kinds tokens
  | .done => (List.append_nil _).symm
  | .join _ sign operand rest => by
    rw [rest.marks, essential.marksOf_operator sign, Token.marksOf_append, ← operand.marks,
      Expr.marks, List.append_assoc, List.cons_append]

theorem Arguments.marks {tokens : List Token} {args : List Expr} :
    Arguments tokens args → Expr.marksAll args = marksOf kinds tokens
  | .none opening closing => by
    rw [essential.marksOf_punctuation opening, essential.marksOf_punctuation closing]
    rfl
  | .some opening items closing => by
    rw [essential.marksOf_punctuation opening, Token.marksOf_append,
      essential.marksOf_punctuation closing, Token.marksOf_nil, List.append_nil, items.marks]

theorem Items.marks {tokens : List Token} {exprs : List Expr} :
    Items tokens exprs → Expr.marksAll exprs = marksOf kinds tokens
  | .last item => by
    rw [← item.marks, Expr.marksAll, Expr.marksAll, List.append_nil]
  | .more first comma rest => by
    rw [Token.marksOf_append, essential.marksOf_punctuation comma, ← first.marks, ← rest.marks,
      Expr.marksAll]

end

end Grammar

namespace Token

/-- The tokens of a text stand at different places, one behind the other. -/
theorem scan_pos_lt (text : String) :
    (scan text).Pairwise fun first second => first.pos < second.pos := by
  have tokenised : Tokenised text (scan text) := tokenised_iff_scan.mpr rfl
  obtain ⟨body, scanned, before⟩ := tokenised.ended
  rw [scanned] at tokenised ⊢
  -- every token but the end has a character of its own
  have present : ∀ token ∈ body, token.pos < token.pos + token.text.length := by
    intro token member
    exact (tokenised.covers_pos (List.mem_append_left _ member) (before token member)).2
  obtain ⟨inner, -, outer⟩ := List.pairwise_append.mp tokenised.ordered
  refine List.pairwise_append.mpr ⟨inner.imp_of_mem ?_, List.pairwise_singleton _ _, ?_⟩
  · intro first second member _ apart
    exact Nat.lt_of_lt_of_le (present first member) apart
  · intro first member last ending
    exact Nat.lt_of_lt_of_le (present first member) (outer first member last ending)

end Token

/-- Reading loses no token, doubles none and moves none. The nodes of an expression, in the order of
its tree, have the positions of the numbers, words and operators of the text in their order, and say
what these tokens spell. For a definition the word that opens it comes first and has the position of
the statement, the name that is defined is the next token, and behind them come the nodes of the
parameters and of the body, or of the value. Tokens have different positions, so that the token at
the position of a node is the node's own. -/
theorem Statement.read_keeps_tokens {frames : Nat} {text : String} {statement : Statement}
    (read : Statement.read frames text = .ok (some statement)) :
    (Token.scan text).Pairwise (fun first second => first.pos < second.pos) ∧
      match statement with
      | .expression expr =>
        let tokens := (Token.scan text).filter (·.kind ∈ [.number, .word, .operator])
        expr.marks.map (·.pos) = tokens.map (some ·.pos) ∧ expr.marks = tokens.map Token.mark
      | .clause name params body pos =>
        ∃ opening word rest, Token.scan text = opening :: word :: rest ∧
          opening.Is .keyword "let" ∧ pos = some opening.pos ∧ word.Is .word name ∧
          ((Token.scan text).filter (·.kind ∈ [.keyword, .number, .word, .operator])).map
              Token.mark =
            opening.mark :: word.mark :: (Expr.marksAll params ++ body.marks)
      | .constant name value pos =>
        ∃ opening word rest, Token.scan text = opening :: word :: rest ∧
          opening.Is .keyword "const" ∧ pos = some opening.pos ∧ word.Is .word name ∧
          ((Token.scan text).filter (·.kind ∈ [.keyword, .number, .word, .operator])).map
              Token.mark =
            opening.mark :: word.mark :: value.marks := by
  refine ⟨Token.scan_pos_lt text, ?_⟩
  obtain ⟨body, ending, scanned, last, sentence⟩ := Statement.exists_sentence_of_read read
  have silent {kinds : List Token.Kind} (other : .eof ∉ kinds) :
      Token.marksOf kinds (body ++ [ending]) = Token.marksOf kinds body := by
    rw [Token.marksOf_append, Token.marksOf_cons_of_not_mem (last ▸ other), Token.marksOf_nil,
      List.append_nil]
  have keyed : Token.Essential [.keyword, .number, .word, .operator] := by constructor <;> decide
  cases sentence with
  | expression derived =>
    have plain : Token.Essential [.number, .word, .operator] := by constructor <;> decide
    have same := (derived.marks plain).trans (silent (by decide)).symm
    rw [← scanned] at same
    refine ⟨?_, same⟩
    rw [same, Token.marksOf, List.map_map]
    rfl
  | @clause opening word equals list tokens params body opens kind listed equated derived =>
    refine ⟨opening, word, _, scanned, opens, rfl, ⟨kind, rfl⟩, ?_⟩
    rw [scanned]
    refine (silent (by decide)).trans ?_
    rw [Token.marksOf_cons_of_mem (by simp [opens.kind]),
      Token.marksOf_cons_of_mem (kind ▸ keyed.word), Token.marksOf_append,
      keyed.marksOf_punctuation equated, listed.marks keyed, derived.marks keyed]
  | @constant opening word equals tokens value opens kind equated derived =>
    refine ⟨opening, word, _, scanned, opens, rfl, ⟨kind, rfl⟩, ?_⟩
    rw [scanned]
    refine (silent (by decide)).trans ?_
    rw [Token.marksOf_cons_of_mem (by simp [opens.kind]),
      Token.marksOf_cons_of_mem (kind ▸ keyed.word), keyed.marksOf_punctuation equated,
      derived.marks keyed]

/-- The tree of a difference in parentheses that is raised to a power. -/
def raisedDifference : Expr :=
  .binary .pow
    (.binary .sub (.var "x" (some 1))
      (.call "f" [.unary .neg (.var "y" (some 8)) (some 7), .var "z" (some 11)] (some 5))
      (some 3))
    (.var "n" (some 15)) (some 14)

/-- Parentheses and commas leave no marks, and the order of the others is that of the text. -/
theorem raised_difference_keeps_tokens :
    Statement.read 40 "(x - f(-y, z))^n" = .ok (some (.expression raisedDifference)) ∧
      raisedDifference.marks =
        ((Token.scan "(x - f(-y, z))^n").filter (·.kind ∈ [.number, .word, .operator])).map
          Token.mark ∧
      raisedDifference.marks.map (·.pos) =
        [some 1, some 3, some 5, some 7, some 8, some 11, some 14, some 15] := by
  have read : Statement.read 40 "(x - f(-y, z))^n" =
      .ok (some (.expression raisedDifference)) := by rfl
  exact ⟨read, (Statement.read_keeps_tokens read).2.2, rfl⟩

end Calculator

import Mathlib.Data.List.Forall2
import Calculator.Proofs.Statement.Displacement

namespace Calculator

namespace Statement

/-- The text is read as the statement whenever frames do not run out, which they do not from some
budget on. -/
def ReadAs (text : String) (statement : Statement) : Prop :=
  (∀ frames, Statement.read frames text ≠ .error .stackLimit →
    Statement.read frames text = .ok (some statement)) ∧
    Eventually fun frames => Statement.read frames text ≠ .error .stackLimit

theorem ReadAs.exists_read {text : String} {statement : Statement}
    (readAs : ReadAs text statement) :
    ∃ frames, Statement.read frames text = .ok (some statement) := by
  obtain ⟨agrees, enough, finished⟩ := readAs
  exact ⟨enough, agrees enough (finished enough (Nat.le_refl _))⟩

theorem readAs_of_sentence {text : String} {statement : Statement}
    (sentence : Grammar.Sentence (Token.body text) statement) : ReadAs text statement := by
  have genuine := Token.scan_genuine text
  have scanned := Token.scan_eq_body text
  refine ⟨fun frames finished => ?_, 12 * (Token.scan text).length + 12, fun frames enough =>
    Reader.whole_finishes genuine enough⟩
  rw [scanned] at genuine
  rw [Statement.read, scanned] at finished ⊢
  exact (Reader.whole_eq_some_iff genuine rfl sentence.ne_eof finished statement).mpr sentence

/-- What is read once is read whenever frames do not run out. -/
theorem readAs_of_read {frames : Nat} {text : String} {statement : Statement}
    (read : Statement.read frames text = .ok (some statement)) : ReadAs text statement := by
  obtain ⟨tokens, ending, scanned, -, sentence⟩ := exists_sentence_of_read read
  rw [← (List.append_inj' ((Token.scan_eq_body text).symm.trans scanned) rfl).1] at sentence
  exact readAs_of_sentence sentence

end Statement

namespace Token

theorem map_shift_shift (tokens : List Token) (first second : Nat) :
    (tokens.map (shift first)).map (shift second) = tokens.map (shift (first + second)) := by
  rw [List.map_map]
  apply List.map_congr_left
  intro token _
  simp [shift, Nat.add_assoc]

@[simp] theorem body_empty : body "" = [] :=
  rfl

theorem body_append_mark (c : Char) (mark : isPunctuation c = true) (first second : String) :
    body (first ++ String.singleton c ++ second) =
      body first ++ ⟨.punctuation, String.singleton c, first.length⟩ ::
        (body second).map (shift (first.length + 1)) := by
  have visible := isBlank_eq_false (.inr (.inr (.inl mark)))
  have other := not_isOperator_of_isPunctuation mark
  rw [body_append_separator (by simp [isSeparator, mark]), ofSeparator, visible]
  simp [other]

/-- The tokens of a text in parentheses that open at a position. -/
def enclosed (pos : Nat) (text : String) : List Token :=
  ⟨.punctuation, "(", pos⟩ ::
    ((body text).map (shift (pos + 1)) ++ [⟨.punctuation, ")", pos + text.length + 1⟩])

theorem map_shift_enclosed (pos distance : Nat) (text : String) :
    (enclosed pos text).map (shift distance) = enclosed (pos + distance) text := by
  simp only [enclosed, List.map_cons, List.map_append, map_shift_shift, List.map_nil]
  simp only [shift, Nat.add_right_comm _ _ distance]

theorem body_enclosed (first text second : String) :
    body (first ++ "(" ++ text ++ ")" ++ second) =
      body first ++ enclosed first.length text ++
        (body second).map (shift (first.length + text.length + 2)) := by
  have opened : body (first ++ "(" ++ text) = _ := body_append_mark '(' (by decide) first text
  have closed : body (first ++ "(" ++ text ++ ")" ++ second) = _ :=
    body_append_mark ')' (by decide) (first ++ "(" ++ text) second
  have length : (first ++ "(" ++ text).length = first.length + text.length + 1 := by
    simp only [String.length_append]
    exact Nat.add_right_comm _ 1 _
  rw [closed, opened, length, enclosed]
  simp only [List.append_assoc, List.cons_append, List.nil_append]
  rfl

theorem body_enclosed_last (first text : String) :
    body (first ++ "(" ++ text ++ ")") = body first ++ enclosed first.length text := by
  have tokens := body_enclosed first text ""
  rwa [String.append_empty, body_empty, List.map_nil, List.append_nil] at tokens

theorem body_append_blank (first second : String) :
    body (first ++ " " ++ second) = body first ++ (body second).map (shift (first.length + 1)) := by
  have split : body (first ++ " " ++ second) = _ :=
    body_append_separator (c := ' ') (by decide) first second
  rw [split, ofSeparator, if_pos (by decide), List.append_nil]

theorem body_let {name : String} {word : Token} (single : body name = [word]) :
    body ("let " ++ name) = [⟨.keyword, "let", 0⟩, shift 4 word] := by
  have split : body ("let " ++ name) = _ := body_append_blank "let" name
  rw [split, single]
  rfl

end Token

/-- Expressions moved behind the texts of those before them and a comma for each. -/
def Expr.shiftEach (distance : Nat) : List String → List Expr → List Expr
  | text :: texts, expr :: exprs =>
    expr.shift distance :: Expr.shiftEach (distance + text.length + 1) texts exprs
  | _, _ => []

namespace Grammar

open Token (body shift enclosed)
open Statement (ReadAs)

theorem derives_of_readAs {text : String} {expr : Expr} (readAs : ReadAs text (.expression expr))
    (distance : Nat) : Derives .sum ((body text).map (shift distance)) (expr.shift distance) := by
  obtain ⟨frames, read⟩ := readAs.exists_read
  exact Reader.derives_shift_of_read read distance

theorem derives_enclosed {text : String} {expr : Expr} (readAs : ReadAs text (.expression expr))
    (pos : Nat) : Derives .primary (enclosed pos text) (expr.shift (pos + 1)) :=
  .grouped ⟨rfl, rfl⟩ (derives_of_readAs readAs (pos + 1)) ⟨rfl, rfl⟩

section Lists

variable {texts : List String} {exprs : List Expr}
  (all : List.Forall₂ (fun text expr => ReadAs text (.expression expr)) texts exprs)

include all

theorem items_intercalate (some : texts ≠ []) (distance : Nat) :
    Items ((body (",".intercalate texts)).map (shift distance))
      (Expr.shiftEach distance texts exprs) := by
  induction all generalizing distance with
  | nil => exact absurd rfl some
  | @cons text expr texts exprs first rest ih =>
    have derived := derives_of_readAs first distance
    cases texts with
    | nil =>
      cases rest
      rw [String.intercalate_singleton]
      exact .last derived
    | cons next others =>
      have tokens : body (text ++ "," ++ ",".intercalate (next :: others)) = _ :=
        Token.body_append_mark ',' (by decide) text (",".intercalate (next :: others))
      have further := ih (by simp) (distance + text.length + 1)
      rw [String.intercalate_cons_cons, tokens, List.map_append, List.map_cons,
        Token.map_shift_shift, Nat.add_comm, ← Nat.add_assoc]
      exact .more derived ⟨rfl, rfl⟩ further

theorem arguments_enclosed (pos : Nat) :
    Arguments (enclosed pos (",".intercalate texts))
      (Expr.shiftEach (pos + 1) texts exprs) := by
  by_cases none : texts = []
  · subst none
    cases all
    exact .none ⟨rfl, rfl⟩ ⟨rfl, rfl⟩
  · exact .some ⟨rfl, rfl⟩ (items_intercalate all none (pos + 1)) ⟨rfl, rfl⟩

end Lists

theorem Derives.sum_of_signed {tokens : List Token} {expr : Expr}
    (signed : Derives .signed tokens expr) : Derives .sum tokens expr := by
  simpa using Derives.sum (.product (.operand signed) .done) .done

/-- Two operands that hold together by themselves, with any operator between them. -/
theorem Derives.sum_of_operator {op : BinaryOp} {first second : List Token} {sign : Token}
    {left right : Expr} (known : op ∈ [.add, .sub, .mul, .div, .pow])
    (former : Derives .primary first left) (between : sign.Is .operator op.symbol)
    (latter : Derives .primary second right) :
    Derives .sum (first ++ sign :: second) (.binary op left right (some sign.pos)) := by
  have base := Derives.operand (.unsigned former)
  have operand := Derives.operand (.unsigned latter)
  have ofProduct {tokens : List Token} {expr : Expr} (product : Derives .product tokens expr) :
      Derives .sum tokens expr := by
    simpa using Derives.sum product .done
  have ofPower {tokens : List Token} {expr : Expr} (power : Derives .power tokens expr) :
      Derives .product tokens expr := by
    simpa using Derives.product power .done
  simp only [List.mem_cons, List.not_mem_nil, or_false] at known
  rcases known with rfl | rfl | rfl | rfl | rfl
  · simpa using Derives.sum (ofPower base) (.join (by decide) between (ofPower operand) .done)
  · simpa using Derives.sum (ofPower base) (.join (by decide) between (ofPower operand) .done)
  · simpa using ofProduct (.product base (.join (by decide) between operand .done))
  · simpa using ofProduct (.product base (.join (by decide) between operand .done))
  · exact ofProduct (ofPower (.raised (.unsigned former) between operand))

end Grammar

namespace Statement

open Grammar
open Token (body shift enclosed body_enclosed body_enclosed_last body_append_mark
  body_append_blank body_let)

section Operands

variable {text other : String} {expr right : Expr} (readAs : ReadAs text (.expression expr))

include readAs

theorem readAs_grouped : ReadAs ("(" ++ text ++ ")") (.expression (expr.shift 1)) := by
  have tokens : body ("(" ++ text ++ ")") = enclosed 0 text := body_enclosed_last "" text
  apply readAs_of_sentence
  rw [tokens]
  exact .expression (.sum_of_signed (.unsigned (derives_enclosed readAs 0)))

theorem readAs_negated :
    ReadAs ("-(" ++ text ++ ")") (.expression (.unary .neg (expr.shift 2) (some 0))) := by
  have tokens : body ("-(" ++ text ++ ")") = ⟨.operator, "-", 0⟩ :: enclosed 1 text :=
    body_enclosed_last "-" text
  apply readAs_of_sentence
  rw [tokens]
  exact .expression (.sum_of_signed (.negated ⟨rfl, rfl⟩ (.unsigned (derives_enclosed readAs 1))))

theorem readAs_operator {op : BinaryOp} (known : op ∈ [.add, .sub, .mul, .div, .pow])
    (second : ReadAs other (.expression right)) :
    ReadAs ("(" ++ text ++ ")" ++ op.symbol ++ "(" ++ other ++ ")")
      (.expression (.binary op (expr.shift 1) (right.shift (text.length + 4))
        (some (text.length + 2)))) := by
  have single : body op.symbol = [⟨.operator, op.symbol, 0⟩] ∧ op.symbol.length = 1 := by
    simp only [List.mem_cons, List.not_mem_nil, or_false] at known
    rcases known with rfl | rfl | rfl | rfl | rfl <;> exact ⟨rfl, rfl⟩
  have shape : "(" ++ text ++ ")" ++ op.symbol ++ "(" ++ other ++ ")" =
      "" ++ "(" ++ text ++ ")" ++ (op.symbol ++ "(" ++ other ++ ")") := by
    simp [String.append_assoc]
  have tokens : body ("(" ++ text ++ ")" ++ op.symbol ++ "(" ++ other ++ ")") =
      enclosed 0 text ++ ⟨.operator, op.symbol, text.length + 2⟩ ::
        enclosed (text.length + 3) other := by
    rw [shape, body_enclosed, body_enclosed_last, single.1, single.2, List.map_append,
      Token.map_shift_enclosed, Nat.add_comm 1]
    simp [shift]
  apply readAs_of_sentence
  rw [tokens]
  exact .expression (.sum_of_operator known (derives_enclosed readAs 0) ⟨rfl, rfl⟩
    (derives_enclosed second (text.length + 3)))

end Operands

section Names

variable {name : String} {word ending : Token} (lexed : Token.scan name = [word, ending])
  (kind : word.kind = .word) {texts : List String} {exprs : List Expr}
  (all : List.Forall₂ (fun text expr => ReadAs text (.expression expr)) texts exprs)

include lexed kind

theorem readAs_constant {text : String} {expr : Expr} (value : ReadAs text (.expression expr)) :
    ReadAs ("const " ++ name ++ "=" ++ text)
      (.constant word.text (expr.shift (name.length + 7)) (some 0)) := by
  have single : body name = [word] := by rw [body, lexed]; rfl
  have front : body ("const " ++ name) = [⟨.keyword, "const", 0⟩, shift 6 word] := by
    have split : body ("const " ++ name) = _ := body_append_blank "const" name
    rw [split, single]
    rfl
  have length : ("const " ++ name).length + 1 = name.length + 7 := by
    rw [String.length_append, Nat.add_comm _ name.length]
    rfl
  have tokens : body ("const " ++ name ++ "=" ++ text) = _ :=
    body_append_mark '=' (by decide) ("const " ++ name) text
  apply readAs_of_sentence
  rw [tokens, front, length]
  exact .constant ⟨rfl, rfl⟩ kind ⟨rfl, rfl⟩ (derives_of_readAs value _)

include all

theorem readAs_call :
    ReadAs (name ++ "(" ++ ",".intercalate texts ++ ")")
      (.expression (.call word.text (Expr.shiftEach (name.length + 1) texts exprs)
        (some word.pos))) := by
  have single : body name = [word] := by rw [body, lexed]; rfl
  apply readAs_of_sentence
  rw [body_enclosed_last, single]
  exact .expression (.sum_of_signed (.unsigned (.call kind (arguments_enclosed all _))))

theorem readAs_clause {text : String} {expr : Expr} (readAs : ReadAs text (.expression expr)) :
    ReadAs ("let " ++ name ++ "(" ++ ",".intercalate texts ++ ")=" ++ text)
      (.clause word.text (Expr.shiftEach (name.length + 5) texts exprs)
        (expr.shift (name.length + (",".intercalate texts).length + 7)) (some 0)) := by
  have front := body_let (by rw [body, lexed]; rfl : body name = [word])
  have length : ("let " ++ name).length = name.length + 4 := by
    rw [String.length_append, Nat.add_comm]
    rfl
  have equated : body ("=" ++ text) = _ := body_append_mark '=' (by decide) "" text
  have shape : "let " ++ name ++ "(" ++ ",".intercalate texts ++ ")=" ++ text =
      "let " ++ name ++ "(" ++ ",".intercalate texts ++ ")" ++ ("=" ++ text) := by
    rw [show ")=" = ")" ++ "=" from rfl]
    simp only [String.append_assoc]
  apply readAs_of_sentence
  rw [shape, body_enclosed, front, equated, length, Token.body_empty, List.nil_append,
    List.map_cons, Token.map_shift_shift]
  have place : "".length + 1 + (name.length + 4 + (",".intercalate texts).length + 2) =
      name.length + (",".intercalate texts).length + 7 := by
    rw [String.length_empty]
    omega
  rw [place]
  exact .clause ⟨rfl, rfl⟩ kind (arguments_enclosed all _) ⟨rfl, rfl⟩ (derives_of_readAs readAs _)

end Names

/-- Reading is compositional. Take texts that are read as expressions, and a text with one token,
which is a word. Then the first of them is read in parentheses as the same expression, and with a
minus sign before the parentheses as its negative; two in parentheses with an operator between them
are read as that operation; any number of them in parentheses behind the word, with commas between
them, as a call, and with the word `let` in front and a body behind as a clause; and one behind the
word, the word `const` and an equals sign as a constant. The positions in each part are those in the
text of the part and the number of characters before it. -/
theorem reading_composes :
    (∀ text expr, ReadAs text (.expression expr) →
      ReadAs ("(" ++ text ++ ")") (.expression (expr.shift 1)) ∧
      ReadAs ("-(" ++ text ++ ")") (.expression (.unary .neg (expr.shift 2) (some 0)))) ∧
    (∀ first second left right, ReadAs first (.expression left) →
      ReadAs second (.expression right) → ∀ op ∈ [BinaryOp.add, .sub, .mul, .div, .pow],
      ReadAs ("(" ++ first ++ ")" ++ op.symbol ++ "(" ++ second ++ ")")
        (.expression (.binary op (left.shift 1) (right.shift (first.length + 4))
          (some (first.length + 2))))) ∧
    ∀ name word ending, Token.scan name = [word, ending] → word.kind = .word →
      (∀ texts exprs,
        List.Forall₂ (fun text expr => ReadAs text (.expression expr)) texts exprs →
        ReadAs (name ++ "(" ++ ",".intercalate texts ++ ")")
          (.expression (.call word.text (Expr.shiftEach (name.length + 1) texts exprs)
            (some word.pos))) ∧
        ∀ text expr, ReadAs text (.expression expr) →
          ReadAs ("let " ++ name ++ "(" ++ ",".intercalate texts ++ ")=" ++ text)
            (.clause word.text (Expr.shiftEach (name.length + 5) texts exprs)
              (expr.shift (name.length + (",".intercalate texts).length + 7)) (some 0))) ∧
      ∀ text expr, ReadAs text (.expression expr) →
        ReadAs ("const " ++ name ++ "=" ++ text)
          (.constant word.text (expr.shift (name.length + 7)) (some 0)) := by
  refine ⟨?_, ?_, ?_⟩
  · intro text expr readAs
    exact ⟨readAs_grouped readAs, readAs_negated readAs⟩
  · intro first second left right former latter op known
    exact readAs_operator former known latter
  · intro name word ending lexed kind
    refine ⟨?_, fun text expr value => readAs_constant lexed kind value⟩
    intro texts exprs all
    exact ⟨readAs_call lexed kind all, fun text expr readAs => readAs_clause lexed kind all readAs⟩

/-- A clause whose parameters end in an operand and in a blank, put together from its parts. -/
theorem clause_read_from_parts :
    Statement.read 40 "-x^2" = .ok (some (.expression
      (.binary .pow (.unary .neg (.var "x" (some 1)) (some 0)) (.number (Reader.literal "2")
        (some 3)) (some 2)))) ∧
      Statement.read 40 " y " = .ok (some (.expression (.var "y" (some 1)))) ∧
      Statement.read 40 "g()" = .ok (some (.expression (.call "g" [] (some 0)))) ∧
      Token.scan "f" = [⟨.word, "f", 0⟩, ⟨.eof, "", 1⟩] ∧
      ReadAs "let f(-x^2, y )=g()" (.clause "f"
        [.binary .pow (.unary .neg (.var "x" (some 7)) (some 6)) (.number (Reader.literal "2")
          (some 9)) (some 8), .var "y" (some 12)]
        (.call "g" [] (some 16)) (some 0)) := by
  have power : Statement.read 40 "-x^2" = .ok (some (.expression
      (.binary .pow (.unary .neg (.var "x" (some 1)) (some 0)) (.number (Reader.literal "2")
        (some 3)) (some 2)))) := by rfl
  have name : Statement.read 40 " y " = .ok (some (.expression (.var "y" (some 1)))) := by rfl
  have call : Statement.read 40 "g()" = .ok (some (.expression (.call "g" [] (some 0)))) := by rfl
  have lexed : Token.scan "f" = [⟨.word, "f", 0⟩, ⟨.eof, "", 1⟩] := by rfl
  refine ⟨power, name, call, lexed, ?_⟩
  obtain ⟨lists, -⟩ := reading_composes.2.2 "f" _ _ lexed rfl
  obtain ⟨-, clause⟩ := lists ["-x^2", " y "] _
    (.cons (readAs_of_read power) (.cons (readAs_of_read name) .nil))
  exact clause "g()" _ (readAs_of_read call)

end Statement

end Calculator

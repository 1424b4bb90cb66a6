import Mathlib.Data.List.TakeWhile
import Calculator.Token.Scan

namespace Calculator

namespace Token

/-- The text tells the kind: a keyword is never a plain word, and nothing else looks like a
punctuation mark. -/
structure Genuine (token : Token) : Prop where
  keyword : token.text ∈ ["let", "const"] → token.kind = .keyword
  punctuation : token.text ∈ ["(", ")", ",", "="] → token.kind = .punctuation

private theorem numberChars_spec {c : Char} (digit : isDigit c = true) (rest : List Char) :
    (∃ more, (numberChars (c :: rest)).1 = c :: more) ∧
      (numberChars (c :: rest)).2.length ≤ rest.length := by
  have shorter := (List.dropWhile_sublist isDigit (l := rest)).length_le
  simp only [numberChars, List.takeWhile_cons, List.dropWhile_cons, digit, if_true]
  split
  · rename_i fraction point
    have fewer := (List.dropWhile_sublist isDigit (l := fraction)).length_le
    rw [point, List.length_cons] at shorter
    exact ⟨⟨_, rfl⟩, Nat.le_trans fewer (by omega)⟩
  · exact ⟨⟨_, rfl⟩, shorter⟩

/-- A token starts with the character it was read at, leaves fewer characters, and is not the
end. -/
theorem lexeme_spec (c : Char) (rest : List Char) :
    (∃ more, (lexeme c rest).2.1 = c :: more) ∧ (lexeme c rest).2.2.length ≤ rest.length ∧
      (lexeme c rest).1 ≠ .eof := by
  by_cases operator : isOperator c = true
  · simp [lexeme, operator]
  by_cases punctuation : isPunctuation c = true
  · simp [lexeme, operator, punctuation]
  by_cases digit : isDigit c = true
  · simpa [lexeme, operator, punctuation, digit] using numberChars_spec digit rest
  by_cases letter : isLetter c = true
  · have shorter := (List.dropWhile_sublist isWordChar (l := rest)).length_le
    rw [lexeme, if_neg operator, if_neg punctuation, if_neg digit, if_pos letter]
    refine ⟨⟨_, rfl⟩, shorter, ?_⟩
    dsimp only
    split <;> decide
  · simp [lexeme, operator, punctuation, digit, letter]

/-- The first character of a keyword or of a mark decides how it is read. -/
theorem lexeme_genuine (c : Char) (rest : List Char) (pos : Nat) :
    Genuine ⟨(lexeme c rest).1, String.ofList (lexeme c rest).2.1, pos⟩ := by
  obtain ⟨⟨more, head⟩, -⟩ := lexeme_spec c rest
  have first {text : String} (same : String.ofList (lexeme c rest).2.1 = text) :
      text.toList.head? = some c := by
    rw [← same, String.toList_ofList, head, List.head?_cons]
  constructor
  · intro keyword
    have listed : isKeyword (String.ofList (lexeme c rest).2.1) = true := by
      simpa [isKeyword] using keyword
    have letter : c = 'l' ∨ c = 'c' := by
      simp only [List.mem_cons, List.not_mem_nil, or_false] at keyword
      rcases keyword with text | text
      · exact .inl (Option.some.inj (first text)).symm
      · exact .inr (Option.some.inj (first text)).symm
    rcases letter with rfl | rfl <;> exact if_pos listed
  · intro mark
    simp only [List.mem_cons, List.not_mem_nil, or_false] at mark
    rcases mark with text | text | text | text <;> cases first text <;> rfl

end Token

namespace Source

/-- With only blanks left the end comes next, else a token that is not the end and leaves fewer
characters. -/
theorem nextToken_cases (source : Source) :
    (source.rest.all Text.isBlank = true ∧ source.nextToken.1.kind = .eof) ∨
      (source.rest.all Text.isBlank = false ∧ source.nextToken.1.kind ≠ .eof ∧
        source.nextToken.2.rest.length < source.rest.length) := by
  have skipped := (List.dropWhile_sublist Text.isBlank (l := source.rest)).length_le
  have blank : source.rest.dropWhile Text.isBlank = [] ↔ source.rest.all Text.isBlank = true := by
    rw [List.dropWhile_eq_nil_iff, List.all_eq_true]
  rcases start : source.rest.dropWhile Text.isBlank with _ | ⟨c, rest⟩
  · left
    simp only [nextToken, skip, start, and_true]
    exact blank.mp start
  · right
    obtain ⟨-, shorter, kind⟩ := Token.lexeme_spec c rest
    rw [start] at skipped blank
    simp only [nextToken, skip, start]
    refine ⟨?_, kind, Nat.lt_of_le_of_lt shorter skipped⟩
    simpa using blank

theorem nextToken_genuine (source : Source) : source.nextToken.1.Genuine := by
  rcases start : source.rest.dropWhile Text.isBlank with _ | ⟨c, rest⟩
  · simp only [nextToken, skip, start]
    constructor <;> intro listed <;> simp at listed
  · simp only [nextToken, skip, start]
    exact Token.lexeme_genuine c rest _

/-- Tokens are read up to the end of the text, if as many may be read as there are characters. -/
theorem tokens_spec {count : Nat} {source : Source} (enough : source.rest.length < count) :
    ∃ body ending, source.tokens count = body ++ [ending] ∧ ending.kind = .eof ∧
      (∀ token ∈ body, token.kind ≠ .eof) ∧ (body = [] ↔ source.rest.all Text.isBlank = true) := by
  induction count generalizing source with
  | zero => omega
  | succ count ih =>
    simp only [tokens]
    rcases source.nextToken_cases with ⟨blank, ended⟩ | ⟨blank, more, shorter⟩
    · exact ⟨[], source.nextToken.1, by simp [ended], ended, by simp, by simp [blank]⟩
    · obtain ⟨body, ending, same, last, before, -⟩ :=
        ih (show source.nextToken.2.rest.length < count by omega)
      refine ⟨source.nextToken.1 :: body, ending, by simp [more, same], last, ?_, by simp [blank]⟩
      intro token member
      rcases List.mem_cons.mp member with rfl | member
      · exact more
      · exact before token member

theorem tokens_genuine (count : Nat) (source : Source) :
    ∀ token ∈ source.tokens count, token.Genuine := by
  induction count generalizing source with
  | zero => simp [tokens]
  | succ count ih =>
    intro token member
    simp only [tokens] at member
    split at member
    · rw [List.mem_singleton.mp member]
      exact source.nextToken_genuine
    · rcases List.mem_cons.mp member with rfl | member
      · exact source.nextToken_genuine
      · exact ih _ token member

end Source

namespace Token

/-- The tokens of a text are the end of the text and, before it, tokens of other kinds; there are
none of those in a blank text only. -/
theorem scan_spec (text : String) :
    ∃ body ending, scan text = body ++ [ending] ∧ ending.kind = .eof ∧
      (∀ token ∈ body, token.kind ≠ .eof) ∧ (body = [] ↔ Text.allBlank text = true) :=
  Source.tokens_spec (Nat.lt_succ_self _)

theorem scan_genuine (text : String) : ∀ token ∈ scan text, token.Genuine :=
  Source.tokens_genuine _ _

end Token

end Calculator

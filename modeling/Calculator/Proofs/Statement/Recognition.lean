import Calculator.Proofs.Frames
import Calculator.Proofs.Statement.Completeness
import Calculator.Proofs.Statement.Depth

namespace Calculator

namespace Reader

open Grammar

variable {frames : Nat} {body : List Token} {ending : Token}

/-- The end of the text is the first token that no statement takes. -/
private theorem taken_eq {taken rest : List Token} (last : ending.kind = .eof)
    (before : ∀ token ∈ body, token.kind ≠ .eof) (inside : ∀ token ∈ taken, token.kind ≠ .eof)
    (split : body ++ [ending] = taken ++ rest) (ended : (peek rest).kind = .eof) :
    taken = body := by
  rcases List.append_eq_append_iff.mp split with ⟨more, rfl, tail⟩ | ⟨more, rfl, tail⟩
  · cases more with
    | nil => simp
    | cons token more =>
      obtain ⟨rfl, -⟩ := List.cons.inj tail
      exact absurd last (inside ending (by simp))
  · cases more with
    | nil => simp
    | cons token more =>
      subst tail
      exact absurd ended (before token (by simp))

theorem whole_eq_none_iff (frames : Nat) (last : ending.kind = .eof)
    (before : ∀ token ∈ body, token.kind ≠ .eof) :
    whole frames (body ++ [ending]) = .ok none ↔ body = [] := by
  cases body with
  | nil => simp [whole, last]
  | cons token rest =>
    have present : token.kind ≠ .eof := before token List.mem_cons_self
    simp only [whole, List.cons_append, peek_cons, present, if_false, reduceCtorEq, iff_false]
    split
    · simp
    · split <;> simp

/-- A text is read as a statement exactly when its tokens are that statement. -/
theorem whole_eq_some_iff (genuine : ∀ token ∈ body ++ [ending], token.Genuine)
    (last : ending.kind = .eof) (before : ∀ token ∈ body, token.kind ≠ .eof)
    (finished : whole frames (body ++ [ending]) ≠ .error .stackLimit) (result : Statement) :
    whole frames (body ++ [ending]) = .ok (some result) ↔ Sentence body result := by
  constructor
  · intro read
    by_cases blank : (peek (body ++ [ending])).kind = .eof
    · simp [whole, blank] at read
    rw [whole, if_neg blank] at read
    rcases found : statement (body ++ [ending]).length frames (body ++ [ending]) with
      failure | ⟨other, rest⟩ <;> rw [found] at read
    · cases read
    by_cases ended : (peek rest).kind = .eof
    · simp only [ended, if_true, Except.ok.injEq, Option.some.injEq] at read
      subst read
      obtain ⟨taken, split, sentence⟩ := statement_sound _ genuine other rest found
      rwa [taken_eq last before sentence.ne_eof split ended] at sentence
    · simp [ended] at read
  · intro sentence
    obtain ⟨token, rest, rfl⟩ := sentence.exists_cons
    have present : ¬(peek (token :: rest ++ [ending])).kind = .eof := before token (by simp)
    have ends : Level.sum.EndsAt (peek [ending]) :=
      .of_kind (by simp [last]) fun call => nomatch last.symm.trans call.kind
    have fits : (token :: rest).length ≤ (token :: rest ++ [ending]).length := by simp
    rw [whole, if_neg present] at finished ⊢
    rcases sentence.yields frames genuine fits ends with found | found <;>
      rw [found] at finished ⊢
    · exact absurd rfl finished
    · simp [last]

theorem whole_finishes {tokens : List Token} (genuine : ∀ token ∈ tokens, token.Genuine)
    (enough : 12 * tokens.length + 12 ≤ frames) : whole frames tokens ≠ .error .stackLimit := by
  have read := statement_finishes tokens.length genuine enough
  rw [whole]
  split
  · simp
  · split
    · rename_i failure found
      rw [found] at read
      simpa using read
    · split <;> simp

end Reader

theorem Statement.read_eq_none_iff (frames : Nat) (text : String) :
    Statement.read frames text = .ok none ↔ Text.allBlank text = true := by
  obtain ⟨body, ending, scanned, last, before, blank⟩ := Token.scan_spec text
  rw [Statement.read, scanned, Reader.whole_eq_none_iff frames last before, blank]

/-- A statement that is read is what the tokens before the end of the text are. -/
theorem Statement.exists_sentence_of_read {frames : Nat} {text : String} {statement : Statement}
    (read : Statement.read frames text = .ok (some statement)) :
    ∃ body ending, Token.scan text = body ++ [ending] ∧ ending.kind = .eof ∧
      Grammar.Sentence body statement := by
  obtain ⟨body, ending, scanned, last, before, -⟩ := Token.scan_spec text
  have genuine := Token.scan_genuine text
  rw [Statement.read, scanned] at read
  rw [scanned] at genuine
  have finished : Reader.whole frames (body ++ [ending]) ≠ .error .stackLimit := by simp [read]
  exact ⟨body, ending, scanned, last,
    (Reader.whole_eq_some_iff genuine last before finished statement).mp read⟩

/-- Reading a text recognises the grammar. Whenever frames do not run out, nothing is read from a
text that is blank and from no other, a statement is read exactly if the tokens before the end of
the text are that statement, and every other text is malformed. Tokens are never two statements,
and for every text there are budgets from which on frames do not run out. -/
theorem Statement.read_recognises :
    (∀ text frames, Statement.read frames text ≠ .error .stackLimit →
      (Statement.read frames text = .ok none ↔ Text.allBlank text = true) ∧
      (∀ result, Statement.read frames text = .ok (some result) ↔
        Grammar.Sentence (Token.scan text).dropLast result) ∧
      ((∃ error, Statement.read frames text = .error (.malformed error)) ↔
        ¬Text.allBlank text = true ∧
          ¬∃ result, Grammar.Sentence (Token.scan text).dropLast result)) ∧
      (∀ tokens first second, Grammar.Sentence tokens first → Grammar.Sentence tokens second →
        first = second) ∧
      ∀ text, Eventually fun frames => Statement.read frames text ≠ .error .stackLimit := by
  refine ⟨?_, fun _ _ _ first second => first.unique second, ?_⟩
  · intro text frames finished
    obtain ⟨body, ending, scanned, last, before, blank⟩ := Token.scan_spec text
    have genuine := Token.scan_genuine text
    simp only [Statement.read, scanned, List.dropLast_concat] at genuine finished ⊢
    have nothing := Reader.whole_eq_none_iff frames last before
    have something := Reader.whole_eq_some_iff genuine last before finished
    rw [blank] at nothing
    refine ⟨nothing, something, ?_⟩
    rw [← nothing]
    simp only [← something]
    rcases outcome : Reader.whole frames (body ++ [ending]) with (error | _) | (_ | result)
    · simp
    · exact absurd outcome finished
    · simp
    · simp
  · intro text
    exact ⟨12 * (Token.scan text).length + 12, fun frames enough =>
      Reader.whole_finishes (Token.scan_genuine text) enough⟩

/-- A minus sign before a power belongs to its base; a call cannot be left open. -/
theorem Statement.signed_power_recognised :
    Statement.read 40 "-2^f(x, 1)" ≠ .error .stackLimit ∧
      Grammar.Sentence (Token.scan "-2^f(x, 1)").dropLast (.expression
        (.binary .pow (.unary .neg (.number (Reader.literal "2") (some 1)) (some 0))
          (.call "f" [.var "x" (some 5), .number (Reader.literal "1") (some 8)] (some 3))
          (some 2))) ∧
      Statement.read 40 "-2^f(x" ≠ .error .stackLimit ∧
      ¬∃ result, Grammar.Sentence (Token.scan "-2^f(x").dropLast result := by
  obtain ⟨recognises, -⟩ := Statement.read_recognises
  have read : Statement.read 40 "-2^f(x, 1)" = .ok (some (.expression
      (.binary .pow (.unary .neg (.number (Reader.literal "2") (some 1)) (some 0))
        (.call "f" [.var "x" (some 5), .number (Reader.literal "1") (some 8)] (some 3))
        (some 2)))) := by rfl
  have rejected : Statement.read 40 "-2^f(x" =
      .error (.malformed ⟨⟨.eof, "", 6⟩, .text ")"⟩) := by rfl
  have finished : Statement.read 40 "-2^f(x, 1)" ≠ .error .stackLimit := by simp [read]
  have finished' : Statement.read 40 "-2^f(x" ≠ .error .stackLimit := by simp [rejected]
  refine ⟨finished, ((recognises _ 40 finished).2.1 _).mp read, finished', ?_⟩
  exact ((recognises _ 40 finished').2.2.mp ⟨_, rejected⟩).2

end Calculator

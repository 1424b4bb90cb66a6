import Calculator.Proofs.Statement.Appearance
import Calculator.Proofs.Statement.Locality
import Calculator.Proofs.Statement.Recognition

/-! Which token of a malformed text is blamed: the first one with which the text cannot go on to be
a statement. The tokens before it begin one, with it no text is a statement, and the tokens after it
are never looked at. -/

namespace Calculator

theorem SyntaxError.message_quotes (error : SyntaxError) :
    ∃ before after, error.message = before ++ "\"" ++ error.found.text ++ "\"" ++ after := by
  obtain ⟨found, expected⟩ := error
  have closed : "\" of type <" = "\"" ++ " of type <" := rfl
  cases expected with
  | ending =>
    refine ⟨"unexpected token ", " of type <" ++ found.kind.name ++
      "> at the end of the statement", ?_⟩
    simp only [message, closed, String.append_assoc]
    rfl
  | operand =>
    refine ⟨"expected <number>, <word> or \"(\", found ",
      " of type <" ++ found.kind.name ++ ">", ?_⟩
    simp only [message, closed, String.append_assoc]
    rfl
  | text text =>
    refine ⟨"expected \"" ++ text ++ "\", found ", "", ?_⟩
    simp only [message, String.append_assoc]
    rfl
  | kind kind =>
    refine ⟨"expected token of type <" ++ kind.name ++ ">, found ",
      " of type <" ++ found.kind.name ++ ">", ?_⟩
    simp only [message, closed, String.append_assoc]
    rfl

theorem Grammar.Completable.ne_eof {taken : List Token}
    (begun : Grammar.Completable Grammar.Sentence taken) :
    ∀ token ∈ taken, token.kind ≠ .eof := by
  obtain ⟨missing, -, statement, sentence⟩ := begun
  exact (List.forall_mem_append.mp sentence.ne_eof).1

namespace Reader

open Grammar

variable {body taken : List Token} {token ending : Token} {result : Statement}

/-- Tokens that are a statement are read as it from some budget on. -/
theorem eventually_whole (genuine : ∀ token ∈ body ++ [ending], token.Genuine)
    (last : ending.kind = .eof) (sentence : Sentence body result) :
    Eventually fun frames => whole frames (body ++ [ending]) = .ok (some result) := by
  refine ⟨12 * (body ++ [ending]).length + 12, fun frames enough => ?_⟩
  have finished := whole_finishes genuine enough
  exact (whole_eq_some_iff genuine last sentence.ne_eof finished result).mpr sentence

section Refusal

variable {frames : Nat} {failure : Failure}
  (refused : ∀ others, frames ≤ others → ∀ following,
    whole others (taken ++ token :: following) = .error failure)

include refused

private theorem not_sentence_of_append {following : List Token}
    (split : body ++ [ending] = taken ++ token :: following)
    (genuine : ∀ token ∈ body ++ [ending], token.Genuine) (last : ending.kind = .eof) :
    ¬Sentence body result := by
  intro sentence
  obtain ⟨enough, read⟩ := eventually_whole genuine last sentence
  have accepted : whole (max enough frames) (body ++ [ending]) = .ok (some result) :=
    read _ (by omega)
  rw [split, refused _ (by omega)] at accepted
  cases accepted

theorem not_sentence_of_look (genuine : ∀ other ∈ taken ++ [token], other.Genuine)
    {first more : List Token} (split : body ++ [ending] = first ++ more)
    (alike : first.map Token.look = (taken ++ [token]).map Token.look)
    (also : ∀ other ∈ body ++ [ending], other.Genuine) (last : ending.kind = .eof) :
    ¬Sentence body result := by
  intro sentence
  rw [List.map_append, List.map_singleton] at alike
  obtain ⟨before, single, rfl, befores, singles⟩ := List.map_eq_append_iff.mp alike
  obtain ⟨current, rfl, looks⟩ := List.map_eq_singleton_iff.mp singles
  rcases List.eq_nil_or_concat more with rfl | ⟨between, final, rfl⟩
  · -- the token is the end of both texts
    rw [List.append_nil] at split
    obtain ⟨rfl, ended⟩ := List.append_inj' split rfl
    obtain rfl := List.singleton_inj.mp ended
    obtain ⟨statement, same⟩ := sentence.of_look befores.symm
    have ends : token.kind = .eof := (Token.kind_eq_of_look looks).symm.trans last
    exact not_sentence_of_append refused rfl genuine ends same
  · rw [List.concat_eq_append, ← List.append_assoc] at split
    obtain ⟨rfl, ended⟩ := List.append_inj' split rfl
    obtain rfl := List.singleton_inj.mp ended
    have same : (taken ++ [token] ++ between).map Token.look =
        (before ++ [current] ++ between).map Token.look := by
      simp [befores, looks]
    obtain ⟨statement, same⟩ := sentence.of_look same
    rw [List.append_assoc (before ++ [current])] at also
    have mixed : ∀ other ∈ taken ++ [token] ++ between ++ [ending], other.Genuine := by
      rw [List.append_assoc (taken ++ [token])]
      exact List.forall_mem_append.mpr ⟨genuine, (List.forall_mem_append.mp also).2⟩
    have shape : taken ++ [token] ++ between ++ [ending] =
        taken ++ token :: (between ++ [ending]) := by
      simp
    exact not_sentence_of_append refused shape mixed last same

end Refusal

end Reader

private theorem Statement.read_ne_ok_of_refused {frames : Nat} {failure : Reader.Failure}
    {taken : List Token} {token : Token}
    (refused : ∀ others, frames ≤ others → ∀ following,
      Reader.whole others (taken ++ token :: following) = .error failure)
    (genuine : ∀ other ∈ taken ++ [token], other.Genuine) {text : String}
    (alike : ((Token.scan text).take (taken.length + 1)).map Token.look =
      (taken ++ [token]).map Token.look) (others : Nat) (result : Option Statement) :
    Statement.read others text ≠ .ok result := by
  intro read
  obtain ⟨body, ending, scanned, last, before, -⟩ := Token.scan_spec text
  have also := Token.scan_genuine text
  rw [scanned] at also alike
  rw [Statement.read, scanned] at read
  cases result with
  | none =>
    obtain rfl := (Reader.whole_eq_none_iff others last before).mp read
    obtain rfl : taken = [] := by
      simpa using congrArg List.length alike
    have looks : ending.look = token.look := by
      simpa using alike
    have ended : token.kind = .eof := (Token.kind_eq_of_look looks).symm.trans last
    have accepted := refused frames (Nat.le_refl _) []
    simp [Reader.whole, ended] at accepted
  | some statement =>
    have finished : Reader.whole others (body ++ [ending]) ≠ .error .stackLimit := by simp [read]
    have sentence := (Reader.whole_eq_some_iff also last before finished statement).mp read
    have split := (List.take_append_drop (taken.length + 1) (body ++ [ending])).symm
    exact Reader.not_sentence_of_look refused genuine split alike also last sentence

/-- Some text begins with the tokens and is read, if the tokens can be completed. -/
private theorem Statement.exists_read {text : String} {taken rest : List Token}
    (split : Token.scan text = taken ++ rest)
    (begun : Grammar.Completable Grammar.Sentence taken) :
    ∃ completed result, (Token.scan completed).take taken.length = taken ∧
      Eventually fun frames => Statement.read frames completed = .ok (some result) := by
  have inside := begun.ne_eof
  obtain ⟨missing, visible, statement, sentence⟩ := begun
  obtain ⟨completed, more, ending, scanned, last, same⟩ :=
    Token.scan_continued split inside visible
  have alike : (taken ++ more).map Token.look =
      (taken ++ missing.map Token.ofChar).map Token.look := by
    rw [List.map_append, List.map_append, same]
  obtain ⟨result, sentence⟩ := sentence.of_look alike
  have genuine := Token.scan_genuine completed
  rw [← List.append_assoc] at scanned
  refine ⟨completed, result, by simp [scanned], ?_⟩
  rw [scanned] at genuine
  refine (Reader.eventually_whole genuine last sentence).mono fun frames read => ?_
  rw [Statement.read, scanned, read]

/-- The token that is blamed for a malformed text is the first one with which the text cannot go on
to be a statement. It is a token of the text, which the description quotes; the tokens before it
begin a text that is read as a statement from some budget on; no text whose first tokens look like
those up to it is ever read; and whatever tokens follow it, the same is found. -/
theorem Statement.read_blames_first_unviable (text : String) (frames : Nat) (error : SyntaxError)
    (malformed : Statement.read frames text = .error (.malformed error)) :
    ∃ index, (Token.scan text)[index]? = some error.found ∧
      (∃ before after, error.message = before ++ "\"" ++ error.found.text ++ "\"" ++ after) ∧
      (∃ completed result, (Token.scan completed).take index = (Token.scan text).take index ∧
        Eventually fun frames => Statement.read frames completed = .ok (some result)) ∧
      (∀ other, ((Token.scan other).take (index + 1)).map Token.look =
          ((Token.scan text).take (index + 1)).map Token.look →
        ∀ frames result, Statement.read frames other ≠ .ok result) ∧
      ∀ following, Reader.whole frames ((Token.scan text).take (index + 1) ++ following) =
        .error (.malformed error) := by
  have genuine := Token.scan_genuine text
  have finished : Reader.whole frames (Token.scan text) ≠ .error .stackLimit := by
    rw [← Statement.read, malformed]
    simp
  obtain ⟨taken, rest, split, blamed, again⟩ := Reader.whole_settled genuine finished
  obtain ⟨found, begun⟩ := blamed error malformed
  rw [← Statement.read, malformed] at again
  obtain ⟨token, after, rfl⟩ : ∃ token after, rest = token :: after := by
    cases rest with
    | nil =>
      obtain ⟨body, ending, scanned, last, -⟩ := Token.scan_spec text
      rw [List.append_nil, scanned] at split
      exact absurd last (begun.ne_eof ending (by simp [← split]))
    | cons token after => exact ⟨token, after, rfl⟩
  have upto : (Token.scan text).take (taken.length + 1) = taken ++ [token] := by
    rw [split, List.take_length_add_append, List.take_succ_cons, List.take_zero]
  have refused (others : Nat) (more : frames ≤ others) (following : List Token) :
      Reader.whole others (taken ++ token :: following) = .error (.malformed error) :=
    again others more _ rfl
  refine ⟨taken.length, by simp [split, found], error.message_quotes, ?_, ?_, ?_⟩
  · have start : (Token.scan text).take taken.length = taken := by simp [split]
    rw [start]
    exact Statement.exists_read split begun
  · intro other alike
    rw [upto] at alike
    have upon : ∀ other ∈ taken ++ [token], other.Genuine :=
      fun other member => genuine other (List.mem_of_mem_take (upto ▸ member))
    exact Statement.read_ne_ok_of_refused refused upon alike
  · intro following
    rw [upto, List.append_assoc]
    exact refused frames (Nat.le_refl _) following

/-- Behind a comma a list of arguments cannot be closed, but it can go on. -/
theorem Statement.closing_behind_comma_blamed :
    Statement.read 40 "f(1,) + 2" = .error (.malformed ⟨⟨.punctuation, ")", 4⟩, .operand⟩) ∧
      ∃ index, (Token.scan "f(1,) + 2")[index]? = some ⟨.punctuation, ")", 4⟩ ∧
        (∃ completed result,
          (Token.scan completed).take index = (Token.scan "f(1,) + 2").take index ∧
          Eventually fun frames => Statement.read frames completed = .ok (some result)) ∧
        ∀ other, ((Token.scan other).take (index + 1)).map Token.look =
            ((Token.scan "f(1,) + 2").take (index + 1)).map Token.look →
          ∀ frames result, Statement.read frames other ≠ .ok result := by
  have malformed : Statement.read 40 "f(1,) + 2" =
      .error (.malformed ⟨⟨.punctuation, ")", 4⟩, .operand⟩) := by rfl
  obtain ⟨index, found, -, completed, unviable, -⟩ :=
    Statement.read_blames_first_unviable "f(1,) + 2" 40 _ malformed
  exact ⟨malformed, index, found, completed, unviable⟩

end Calculator

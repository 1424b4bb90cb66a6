import Calculator.Proofs.Token.Munch

namespace Calculator

namespace Token

def shift (distance : Nat) (token : Token) : Token :=
  { token with pos := token.pos + distance }

theorem map_look_shift (distance : Nat) (tokens : List Token) :
    (tokens.map (shift distance)).map look = tokens.map look := by
  rw [List.map_map]
  rfl

/-- The characters that no token goes on with: blanks, operators and punctuation marks. -/
def isSeparator (c : Char) : Bool :=
  Text.isBlank c || isOperator c || isPunctuation c

/-- The tokens that a separator is: none if it is blank, and one otherwise. -/
def ofSeparator (c : Char) (pos : Nat) : List Token :=
  if Text.isBlank c then []
  else [⟨if isOperator c then .operator else .punctuation, String.singleton c, pos⟩]

/-- A separator is in none of the classes that tokens extend over. -/
theorem not_extends_of_isSeparator {c : Char} (separator : isSeparator c = true) :
    isDigit c = false ∧ isWordChar c = false ∧ c ≠ '.' := by
  have plain : isWordChar c = false := by
    by_contra char
    have visible := isBlank_eq_false (.inl (by simpa using char))
    rw [isSeparator, visible, Bool.false_or, Bool.or_eq_true, isOperator_iff,
      isPunctuation_iff] at separator
    simp only [isWordChar, Bool.not_eq_false, Bool.or_eq_true, isLetter_iff, isDigit_iff] at char
    omega
  refine ⟨(Bool.or_eq_false_iff.mp plain).2, plain, ?_⟩
  rintro rfl
  exact absurd separator (by decide)

section Separated

variable {c : Char} (rest : List Char)

/-- The longest beginning within a class ends where a character is outside of it. -/
theorem span_separated {inClass : Char → Bool} (outside : inClass c = false)
    (chars : List Char) :
    (chars ++ c :: rest).takeWhile inClass = chars.takeWhile inClass ∧
      (chars ++ c :: rest).dropWhile inClass = chars.dropWhile inClass ++ c :: rest := by
  induction chars with
  | nil => simp [outside]
  | cons first chars ih =>
    by_cases inside : inClass first = true
    · simp [inside, ih]
    · simp [inside]

variable (separator : isSeparator c = true)

include separator

private theorem numberChars_separated (chars : List Char) :
    numberChars (chars ++ c :: rest) =
      ((numberChars chars).1, (numberChars chars).2 ++ c :: rest) := by
  obtain ⟨digit, -, point⟩ := not_extends_of_isSeparator separator
  obtain ⟨taken, dropped⟩ := span_separated rest digit chars
  simp only [numberChars, taken, dropped]
  rcases chars.dropWhile isDigit with _ | ⟨next, more⟩
  · split
    · rename_i same
      exact absurd (List.cons.inj same).1 point
    · rfl
  · by_cases pointed : next = '.'
    · subst pointed
      obtain ⟨places, behind⟩ := span_separated rest digit more
      simp [places, behind]
    · simp [pointed]

/-- A token ends before a separator as it does at the end of the text. -/
theorem lexeme_separated (first : Char) (chars : List Char) :
    lexeme first (chars ++ c :: rest) =
      ((lexeme first chars).1, (lexeme first chars).2.1,
        (lexeme first chars).2.2 ++ c :: rest) := by
  obtain ⟨-, char, -⟩ := not_extends_of_isSeparator separator
  obtain ⟨taken, dropped⟩ := span_separated rest char chars
  by_cases operator : isOperator first = true
  · simp [lexeme, operator]
  by_cases punctuation : isPunctuation first = true
  · simp [lexeme, operator, punctuation]
  by_cases digit : isDigit first = true
  · have numbers := numberChars_separated rest separator (first :: chars)
    rw [List.cons_append] at numbers
    simp [lexeme, operator, punctuation, digit, numbers]
  by_cases letter : isLetter first = true
  · simp [lexeme, operator, punctuation, digit, letter, taken, dropped]
  · simp [lexeme, operator, punctuation, digit, letter]

end Separated

end Token

namespace Source

open Token

/-- Reading a token leaves the end of the text where it is. -/
theorem nextToken_end (source : Source) :
    source.nextToken.2.pos + source.nextToken.2.rest.length = source.pos + source.rest.length := by
  have whole := List.takeWhile_append_dropWhile (p := Text.isBlank) (l := source.rest)
  have lengths := congrArg List.length whole
  rw [List.length_append] at lengths
  rcases start : source.rest.dropWhile Text.isBlank with _ | ⟨c, rest⟩
  · rw [start, List.length_nil] at lengths
    simp only [nextToken, skip, start, List.length_nil]
    omega
  · obtain ⟨more, chars, split, -⟩ := lexeme_append c rest
    rcases lexed : lexeme c rest with ⟨kind, taken, after⟩
    simp only [lexed] at chars split
    subst chars split
    rw [start, List.length_cons, List.length_append] at lengths
    simp only [nextToken, skip, start, lexed, List.length_cons]
    omega

theorem scan_blanks {blanks : List Char} (blank : ∀ c ∈ blanks, Text.isBlank c = true)
    (rest : List Char) (pos : Nat) :
    scan ⟨blanks ++ rest, pos⟩ = scan ⟨rest, pos + blanks.length⟩ := by
  have next : nextToken ⟨blanks ++ rest, pos⟩ = nextToken ⟨rest, pos + blanks.length⟩ := by
    simp only [nextToken, skip, List.takeWhile_append_of_pos blank,
      List.dropWhile_append_of_pos blank, List.length_append, Nat.add_assoc]
  by_cases ended : (nextToken ⟨rest, pos + blanks.length⟩).1.kind = .eof
  · rw [scan_of_eof ended, scan_of_eof (by rwa [next]), next]
  · rw [scan_of_ne_eof ended, scan_of_ne_eof (by rwa [next]), next]

/-- A token that a separator comes behind is read as if the text ended there. -/
private theorem nextToken_separated {c : Char} (separator : isSeparator c = true)
    (rest : List Char) (source : Source) (visible : source.nextToken.1.kind ≠ .eof) :
    nextToken ⟨source.rest ++ c :: rest, source.pos⟩ =
      (source.nextToken.1, ⟨source.nextToken.2.rest ++ c :: rest, source.nextToken.2.pos⟩) := by
  have whole := List.takeWhile_append_dropWhile (p := Text.isBlank) (l := source.rest)
  have blanks : ∀ d ∈ source.rest.takeWhile Text.isBlank, Text.isBlank d = true :=
    fun d member => List.mem_takeWhile_imp member
  have first := head_dropWhile Text.isBlank source.rest
  rcases start : source.rest.dropWhile Text.isBlank with _ | ⟨d, more⟩
  · simp [nextToken, skip, start] at visible
  rw [start] at whole first
  have outside : ∀ e ∈ (d :: (more ++ c :: rest)).head?, Text.isBlank e = false := first
  obtain ⟨taken, dropped⟩ := span_append blanks outside
  rw [← List.cons_append, ← List.append_assoc, whole] at taken dropped
  simp only [nextToken, skip, taken, dropped, start, List.cons_append,
    lexeme_separated rest separator]

/-- Up to a separator the tokens are those of the text before it. -/
theorem scan_separated {c : Char} (separator : isSeparator c = true) (rest : List Char)
    (source : Source) :
    scan ⟨source.rest ++ c :: rest, source.pos⟩ =
      source.scan.dropLast ++ scan ⟨c :: rest, source.pos + source.rest.length⟩ := by
  rcases source.nextToken_cases with ⟨blank, ended⟩ | ⟨-, visible, shorter⟩
  · rw [scan_of_eof ended, scan_blanks (by simpa using blank)]
    rfl
  · have next := nextToken_separated separator rest source visible
    have some : source.nextToken.2.scan ≠ [] := by
      obtain ⟨body, ending, scanned, -⟩ :=
        tokens_spec (Nat.lt_succ_self source.nextToken.2.rest.length)
      rw [scan, scanned]
      simp
    have further := scan_separated separator rest source.nextToken.2
    rw [nextToken_end] at further
    rw [scan_of_ne_eof (by rwa [next]), next, further, scan_of_ne_eof visible,
      List.dropLast_cons_of_ne_nil some, List.cons_append]
termination_by source.rest.length

theorem scan_shift (rest : List Char) (pos distance : Nat) :
    scan ⟨rest, pos + distance⟩ = (scan ⟨rest, pos⟩).map (shift distance) := by
  have next : nextToken ⟨rest, pos + distance⟩ =
      ((nextToken ⟨rest, pos⟩).1.shift distance,
        ⟨(nextToken ⟨rest, pos⟩).2.rest, (nextToken ⟨rest, pos⟩).2.pos + distance⟩) := by
    simp only [nextToken, skip, shift]
    split <;> simp only [Prod.mk.injEq, mk.injEq, Token.mk.injEq, true_and] <;> omega
  rcases nextToken_cases ⟨rest, pos⟩ with ⟨-, ended⟩ | ⟨-, visible, shorter⟩
  · rw [scan_of_eof ended, scan_of_eof (by rw [next]; exact ended), next]
    rfl
  · have further := scan_shift (nextToken ⟨rest, pos⟩).2.rest (nextToken ⟨rest, pos⟩).2.pos distance
    rw [scan_of_ne_eof visible, scan_of_ne_eof (by rw [next]; exact visible), next, further]
    rfl
termination_by rest.length

end Source

namespace Token

/-- A text falls apart at a separator: its tokens are those before it, the separator itself unless
it is blank, and those behind it. -/
theorem scan_append_separator {c : Char} (separator : isSeparator c = true)
    (first second : String) :
    scan (first ++ String.singleton c ++ second) =
      (scan first).dropLast ++ ofSeparator c first.length ++
        (scan second).map (shift (first.length + 1)) := by
  have behind : Source.scan ⟨second.toList, first.length + 1⟩ =
      (scan second).map (shift (first.length + 1)) := by
    rw [scan, Source.ofString, ← Source.scan_shift, Nat.zero_add]
  have whole := Source.scan_separated separator second.toList (.ofString first)
  simp only [Source.ofString, Nat.zero_add, String.length_toList] at whole
  rw [scan, Source.ofString, String.toList_append, String.toList_append, String.toList_singleton,
    List.append_assoc, List.singleton_append, whole, List.append_assoc, ← behind]
  congr 1
  cases blank : Text.isBlank c with
  | true =>
    rw [ofSeparator, blank, if_pos rfl, List.nil_append]
    exact Source.scan_blanks (List.forall_mem_singleton.mpr blank) second.toList _
  | false =>
    have read : lexeme c second.toList =
        (if isOperator c then .operator else .punctuation, [c], second.toList) := by
      rw [isSeparator, blank, Bool.false_or, Bool.or_eq_true] at separator
      by_cases operator : isOperator c = true
      · simp [lexeme, operator]
      · simp [lexeme, operator, separator.resolve_left operator]
    rw [ofSeparator, blank, Source.scan_cons blank read, String.singleton_eq_ofList]
    rfl

/-- The tokens of a text without its end. -/
def body (text : String) : List Token :=
  (scan text).dropLast

theorem scan_eq_body (text : String) : scan text = body text ++ [⟨.eof, "", text.length⟩] := by
  have tokenised : Tokenised text (scan text) := tokenised_iff_scan.mpr rfl
  obtain ⟨tokens, scanned, -⟩ := tokenised.ended
  rw [body, scanned, List.dropLast_concat, String.length_toList]

theorem body_append_separator {c : Char} (separator : isSeparator c = true)
    (first second : String) :
    body (first ++ String.singleton c ++ second) =
      body first ++ ofSeparator c first.length ++
        (body second).map (shift (first.length + 1)) := by
  rw [body, scan_append_separator separator, scan_eq_body second, List.map_append,
    List.map_singleton, ← List.append_assoc, List.dropLast_concat, ← body]

theorem scan_text_of_mem_tokens {count : Nat} {source : Source} :
    ∀ token ∈ source.tokens count, token.kind ≠ .eof →
      scan token.text = [⟨token.kind, token.text, 0⟩, ⟨.eof, "", token.text.length⟩] := by
  induction count generalizing source with
  | zero => simp [Source.tokens]
  | succ count ih =>
    have first : source.nextToken.1.kind ≠ .eof →
        scan source.nextToken.1.text =
          [⟨source.nextToken.1.kind, source.nextToken.1.text, 0⟩,
            ⟨.eof, "", source.nextToken.1.text.length⟩] := by
      have stopped := head_dropWhile Text.isBlank source.rest
      rcases start : source.rest.dropWhile Text.isBlank with _ | ⟨c, rest⟩
      · simp [Source.nextToken, Source.skip, start]
      · intro _
        rw [start] at stopped
        obtain ⟨more, chars, -, again⟩ := lexeme_append c rest
        have alone := again [] (by simp [Replaces])
        rw [List.append_nil] at alone
        simp only [Source.nextToken, Source.skip, start, chars]
        rw [scan, Source.ofString, String.toList_ofList, Source.scan_cons (stopped c rfl) alone,
          Source.scan_nil]
        simp [Nat.add_comm]
    simp only [Source.tokens]
    split
    · exact List.forall_mem_singleton.mpr first
    · exact List.forall_mem_cons.mpr ⟨first, ih⟩

theorem scan_text_of_mem {text : String} :
    ∀ token ∈ scan text, token.kind ≠ .eof →
      scan token.text = [⟨token.kind, token.text, 0⟩, ⟨.eof, "", token.text.length⟩] :=
  scan_text_of_mem_tokens

theorem look_scan_spaced {tokens : List Token}
    (alone : ∀ token ∈ tokens,
      scan token.text = [⟨token.kind, token.text, 0⟩, ⟨.eof, "", token.text.length⟩]) :
    (scan (" ".intercalate (tokens.map Token.text ++ [""]))).map look =
      tokens.map look ++ [(.eof, "")] := by
  induction tokens with
  | nil => rfl
  | cons token rest ih =>
    obtain ⟨single, others⟩ := List.forall_mem_cons.mp alone
    have blank : isSeparator ' ' = true := by decide
    have split : scan (token.text ++ " " ++ " ".intercalate (rest.map Token.text ++ [""])) = _ :=
      scan_append_separator blank token.text _
    rw [List.map_cons, List.cons_append, String.intercalate_cons_of_ne_nil (by simp), split, single,
      List.map_append, map_look_shift, ih others]
    rfl

/-- Scanning splits at separators: around a blank, an operator or a punctuation mark the tokens of a
text are those of what stands before it and of what stands behind it, each as it would be scanned by
itself, with the token of the mark between them. So the tokens of any text, written with single
spaces between them, are scanned as the same kinds and texts. -/
theorem scan_splits_at_separators :
    (∀ (first second : String) (c : Char), isSeparator c = true →
      scan (first ++ String.singleton c ++ second) =
        (scan first).dropLast ++ ofSeparator c first.length ++
          (scan second).map (shift (first.length + 1))) ∧
      ∀ text : String, (scan (" ".intercalate ((scan text).map Token.text))).map look =
        (scan text).map look := by
  refine ⟨fun first second c separator => scan_append_separator separator first second, ?_⟩
  intro text
  have tokenised : Tokenised text (scan text) := tokenised_iff_scan.mpr rfl
  obtain ⟨tokens, scanned, before⟩ := tokenised.ended
  have alone : ∀ token ∈ tokens,
      scan token.text = [⟨token.kind, token.text, 0⟩, ⟨.eof, "", token.text.length⟩] := by
    intro token member
    have present : token ∈ scan text := by
      rw [scanned]
      exact List.mem_append_left _ member
    exact scan_text_of_mem token present (before token member)
  rw [scanned, List.map_append, List.map_append]
  exact look_scan_spaced alone

/-- A number that ends with a point and half a keyword end at an operator. -/
theorem pointed_number_split :
    isSeparator '*' = true ∧
      scan "12.*le" = [⟨.number, "12.", 0⟩, ⟨.operator, "*", 3⟩, ⟨.word, "le", 4⟩, ⟨.eof, "", 6⟩] ∧
      (scan (" ".intercalate ((scan "12.*le").map Token.text))).map look =
        [(.number, "12."), (.operator, "*"), (.word, "le"), (.eof, "")] := by
  obtain ⟨splits, joined⟩ := scan_splits_at_separators
  have separator : isSeparator '*' = true := by decide
  have first : scan "12." = [⟨.number, "12.", 0⟩, ⟨.eof, "", 3⟩] := by rfl
  have second : scan "le" = [⟨.word, "le", 0⟩, ⟨.eof, "", 2⟩] := by rfl
  have split := splits "12." "le" '*' separator
  rw [first, second] at split
  have scanned : scan "12.*le" =
      [⟨.number, "12.", 0⟩, ⟨.operator, "*", 3⟩, ⟨.word, "le", 4⟩, ⟨.eof, "", 6⟩] := split
  refine ⟨separator, scanned, (joined "12.*le").trans ?_⟩
  rw [scanned]
  rfl

end Token

end Calculator

import Calculator.Proofs.Token.Scan

namespace Calculator

namespace Token

def look (token : Token) : Kind × String :=
  (token.kind, token.text)

/-- The token that a character is when it stands alone. -/
def ofChar (c : Char) : Token :=
  ⟨(lexeme c []).1, String.ofList [c], 0⟩

/-- Characters that can take the place of others behind a token: they start in the same way, or with
a blank, or there are none. -/
def Replaces (other after : List Char) : Prop :=
  ∀ c ∈ other.head?, c = ' ' ∨ c ∈ after.head?

namespace Replaces

variable {other after : List Char}

theorem append (replaces : Replaces other after) (start : List Char) :
    Replaces (start ++ other) (start ++ after) := by
  cases start with
  | nil => exact replaces
  | cons c start => exact fun _ head => .inr head

theorem outside (replaces : Replaces other after) {inClass : Char → Bool}
    (blank : inClass ' ' = false) (ended : ∀ c ∈ after.head?, inClass c = false) :
    ∀ c ∈ other.head?, inClass c = false := by
  intro c head
  rcases replaces c head with rfl | same
  · exact blank
  · exact ended c same

end Replaces

theorem head_dropWhile (inClass : Char → Bool) (chars : List Char) :
    ∀ c ∈ (chars.dropWhile inClass).head?, inClass c = false := by
  intro c head
  have stopped := List.head?_dropWhile_not inClass chars
  rwa [Option.mem_def.mp head] at stopped

/-- The longest beginning within a class stays the same before what is outside of it. -/
theorem span_append {inClass : Char → Bool} {chars other : List Char}
    (inside : ∀ c ∈ chars, inClass c = true) (outside : ∀ c ∈ other.head?, inClass c = false) :
    (chars ++ other).takeWhile inClass = chars ∧ (chars ++ other).dropWhile inClass = other := by
  rw [List.takeWhile_append_of_pos inside, List.dropWhile_append_of_pos inside]
  cases other with
  | nil => simp
  | cons c other => simp [outside c rfl]

section Numbers

variable {whole : List Char} (digits : ∀ d ∈ whole, isDigit d = true)

include digits

theorem numberChars_of_point (fraction : List Char) :
    numberChars (whole ++ '.' :: fraction) =
      (whole ++ '.' :: fraction.takeWhile isDigit, fraction.dropWhile isDigit) := by
  have point : ∀ d ∈ ('.' :: fraction).head?, isDigit d = false := by
    rintro d ⟨⟩
    decide
  obtain ⟨taken, dropped⟩ := span_append digits point
  rw [numberChars, taken, dropped]
  rfl

theorem numberChars_of_ended {after : List Char}
    (ended : ∀ d ∈ after.head?, isDigit d = false) (pointless : ∀ d ∈ after.head?, d ≠ '.') :
    numberChars (whole ++ after) = (whole, after) := by
  obtain ⟨taken, dropped⟩ := span_append digits ended
  rw [numberChars, taken, dropped]
  split
  · exact absurd rfl (pointless '.' rfl)
  · rfl

end Numbers

private theorem numberChars_append (chars : List Char) :
    (numberChars chars).1 ++ (numberChars chars).2 = chars ∧
      ∀ other, Replaces other (numberChars chars).2 →
        numberChars ((numberChars chars).1 ++ other) = ((numberChars chars).1, other) := by
  have digits : ∀ d ∈ chars.takeWhile isDigit, isDigit d = true :=
    fun d member => List.mem_takeWhile_imp member
  have ended := head_dropWhile isDigit chars
  rw [← List.takeWhile_append_dropWhile (p := isDigit) (l := chars)]
  by_cases point : ∃ fraction, chars.dropWhile isDigit = '.' :: fraction
  · obtain ⟨fraction, point⟩ := point
    rw [point, numberChars_of_point digits]
    constructor
    · simp
    · intro other replaces
      have places : ∀ d ∈ fraction.takeWhile isDigit, isDigit d = true :=
        fun d member => List.mem_takeWhile_imp member
      have behind := replaces.outside (by decide) (head_dropWhile isDigit fraction)
      obtain ⟨taken, dropped⟩ := span_append places behind
      rw [List.append_assoc, List.cons_append, numberChars_of_point digits, taken, dropped]
  · have pointless : ∀ d ∈ (chars.dropWhile isDigit).head?, (d == '.') = false := by
      intro d head
      rw [beq_eq_false_iff_ne]
      rintro rfl
      exact point (List.head?_eq_some_iff.mp head)
    rw [numberChars_of_ended digits ended (by simpa using pointless)]
    refine ⟨rfl, fun other replaces => ?_⟩
    have behind := replaces.outside (by decide) ended
    have apart := replaces.outside (by decide) pointless
    exact numberChars_of_ended digits behind (by simpa using apart)

/-- A token is made of the characters that it was read from, and it is read again when others take
the place of those behind it. -/
theorem lexeme_append (c : Char) (rest : List Char) :
    ∃ more, (lexeme c rest).2.1 = c :: more ∧ rest = more ++ (lexeme c rest).2.2 ∧
      ∀ other, Replaces other (lexeme c rest).2.2 →
        lexeme c (more ++ other) = ((lexeme c rest).1, c :: more, other) := by
  by_cases operator : isOperator c = true
  · exact ⟨[], by simp [lexeme, operator]⟩
  by_cases punctuation : isPunctuation c = true
  · exact ⟨[], by simp [lexeme, operator, punctuation]⟩
  by_cases digit : isDigit c = true
  · have number (chars : List Char) : lexeme c chars = (.number, numberChars (c :: chars)) := by
      simp [lexeme, operator, punctuation, digit]
    obtain ⟨⟨more, chars⟩, -⟩ := lexeme_spec c rest
    obtain ⟨split, again⟩ := numberChars_append (c :: rest)
    simp only [number] at chars ⊢
    rw [chars] at split
    refine ⟨more, chars, (List.cons.inj split).2.symm, fun other replaces => ?_⟩
    rw [← List.cons_append, ← chars, again other replaces]
  by_cases letter : isLetter c = true
  · simp only [lexeme, if_neg operator, if_neg punctuation, if_neg digit, if_pos letter]
    have inside : ∀ d ∈ rest.takeWhile isWordChar, isWordChar d = true :=
      fun d member => List.mem_takeWhile_imp member
    refine ⟨rest.takeWhile isWordChar, rfl, List.takeWhile_append_dropWhile.symm, ?_⟩
    intro other replaces
    have behind := replaces.outside (by decide) (head_dropWhile isWordChar rest)
    obtain ⟨taken, dropped⟩ := span_append inside behind
    rw [taken, dropped]
  · exact ⟨[], by simp [lexeme, operator, punctuation, digit, letter]⟩

end Token

namespace Source

open Token

/-- Every number of tokens to read is enough that exceeds the number of characters. -/
private theorem tokens_eq_of_lt {count more : Nat} {source : Source}
    (enough : source.rest.length < count) (also : source.rest.length < more) :
    source.tokens count = source.tokens more := by
  induction count generalizing source more with
  | zero => omega
  | succ count ih =>
    obtain ⟨more, rfl⟩ : ∃ fewer, more = fewer + 1 := ⟨more - 1, by omega⟩
    simp only [tokens]
    rcases source.nextToken_cases with ⟨-, ended⟩ | ⟨-, visible, shorter⟩
    · simp [ended]
    · have rest : source.nextToken.2.tokens count = source.nextToken.2.tokens more :=
        ih (by omega) (by omega)
      simp only [visible, if_false, rest]

theorem scan_of_eof {source : Source} (ended : source.nextToken.1.kind = .eof) :
    source.scan = [source.nextToken.1] := by
  simp [scan, tokens, ended]

theorem scan_of_ne_eof {source : Source} (visible : source.nextToken.1.kind ≠ .eof) :
    source.scan = source.nextToken.1 :: source.nextToken.2.scan := by
  rcases source.nextToken_cases with ⟨-, ended⟩ | ⟨-, -, shorter⟩
  · exact absurd ended visible
  · have rest : source.nextToken.2.tokens source.rest.length = source.nextToken.2.scan :=
      tokens_eq_of_lt shorter (Nat.lt_succ_self _)
    rw [← rest]
    simp [scan, tokens, visible]

/-- A token at the front of what is left of a text. -/
theorem scan_cons {c : Char} {rest taken after : List Char} {kind : Kind}
    (visible : Text.isBlank c = false) (read : lexeme c rest = (kind, taken, after))
    (pos : Nat) :
    scan ⟨c :: rest, pos⟩ =
      ⟨kind, String.ofList taken, pos⟩ :: scan ⟨after, pos + taken.length⟩ := by
  have next : nextToken ⟨c :: rest, pos⟩ =
      (⟨kind, String.ofList taken, pos⟩, ⟨after, pos + taken.length⟩) := by
    simp [nextToken, skip, visible, read]
  have other : kind ≠ .eof := by
    have := (lexeme_spec c rest).2.2
    rwa [read] at this
  rw [scan_of_ne_eof (by rwa [next]), next]

theorem scan_nil (pos : Nat) : scan ⟨[], pos⟩ = [⟨.eof, "", pos⟩] := rfl

/-- A token is read again from the characters up to its last one. -/
private theorem nextToken_append (source : Source) (visible : source.nextToken.1.kind ≠ .eof) :
    ∃ start, source.rest = start ++ source.nextToken.2.rest ∧
      ∀ other, Replaces other source.nextToken.2.rest →
        nextToken ⟨start ++ other, source.pos⟩ =
          (source.nextToken.1, ⟨other, source.nextToken.2.pos⟩) := by
  have blanks : ∀ c ∈ source.rest.takeWhile Text.isBlank, Text.isBlank c = true :=
    fun c member => List.mem_takeWhile_imp member
  have first := head_dropWhile Text.isBlank source.rest
  have whole := List.takeWhile_append_dropWhile (p := Text.isBlank) (l := source.rest)
  rcases start : source.rest.dropWhile Text.isBlank with _ | ⟨c, rest⟩
  · simp [nextToken, skip, start] at visible
  rw [start] at first whole
  obtain ⟨more, chars, split, again⟩ := lexeme_append c rest
  simp only [nextToken, skip, start]
  refine ⟨source.rest.takeWhile Text.isBlank ++ c :: more, ?_, ?_⟩
  · rw [List.append_assoc, List.cons_append, ← split, whole]
  · intro other replaces
    have outside : ∀ d ∈ (c :: (more ++ other)).head?, Text.isBlank d = false := first
    obtain ⟨taken, dropped⟩ := span_append blanks outside
    simp only [List.append_assoc, List.cons_append, taken, dropped, again other replaces, chars]

/-- The first tokens of a text are read again when something else follows them. -/
theorem scan_append {source : Source} {taken rest : List Token}
    (split : source.scan = taken ++ rest) (visible : ∀ token ∈ taken, token.kind ≠ .eof) :
    ∃ start after pos, source.rest = start ++ after ∧
      ∀ other, Replaces other after →
        scan ⟨start ++ other, source.pos⟩ = taken ++ scan ⟨other, pos⟩ := by
  induction taken generalizing source with
  | nil => exact ⟨[], source.rest, source.pos, rfl, fun other _ => rfl⟩
  | cons token taken ih =>
    obtain ⟨head, behind⟩ := List.forall_mem_cons.mp visible
    have present : source.nextToken.1.kind ≠ .eof := by
      intro ended
      rw [scan_of_eof ended] at split
      obtain ⟨rfl, -⟩ := List.cons.inj split
      exact head ended
    rw [scan_of_ne_eof present] at split
    obtain ⟨rfl, further⟩ := List.cons.inj split
    obtain ⟨first, chars, again⟩ := nextToken_append source present
    obtain ⟨start, after, pos, remaining, onwards⟩ := ih further behind
    refine ⟨first ++ start, after, pos, by rw [chars, remaining, List.append_assoc], ?_⟩
    intro other replaces
    have next := again (start ++ other) (remaining ▸ replaces.append start)
    rw [List.append_assoc, scan_of_ne_eof (by rwa [next]), next, onwards other replaces]
    rfl

/-- Characters with a blank before each of them. -/
def spaced (chars : List Char) : List Char :=
  chars.flatMap fun c => [' ', c]

theorem replaces_spaced (chars after : List Char) : Replaces (spaced chars) after := by
  cases chars with
  | nil => simp [spaced, Replaces]
  | cons c chars => simp [spaced, Replaces]

theorem scan_spaced {chars : List Char} (visible : ∀ c ∈ chars, Text.isBlank c = false)
    (pos : Nat) :
    ∃ body ending, scan ⟨spaced chars, pos⟩ = body ++ [ending] ∧ ending.kind = .eof ∧
      body.map look = (chars.map ofChar).map look := by
  induction chars generalizing pos with
  | nil => exact ⟨[], ⟨.eof, "", pos⟩, rfl, rfl, rfl⟩
  | cons c chars ih =>
    obtain ⟨head, behind⟩ := List.forall_mem_cons.mp visible
    obtain ⟨more, single, nothing, again⟩ := lexeme_append c []
    obtain ⟨rfl, -⟩ := List.append_eq_nil_iff.mp nothing.symm
    have blank : Text.isBlank ' ' = true := by decide
    have next : nextToken ⟨spaced (c :: chars), pos⟩ =
        (⟨(lexeme c []).1, String.ofList [c], pos + 1⟩, ⟨spaced chars, pos + 1 + 1⟩) := by
      have lexed := again (spaced chars) (replaces_spaced chars _)
      rw [List.nil_append] at lexed
      simp [nextToken, skip, show spaced (c :: chars) = ' ' :: c :: spaced chars from rfl, blank,
        head, lexed]
    have kind : (nextToken ⟨spaced (c :: chars), pos⟩).1.kind ≠ .eof := by
      rw [next]
      exact (lexeme_spec c []).2.2
    obtain ⟨body, ending, scanned, last, same⟩ := ih behind (pos + 1 + 1)
    rw [scan_of_ne_eof kind, next, scanned]
    exact ⟨_ :: body, ending, rfl, last, by rw [List.map_cons, same]; rfl⟩

end Source

/-- Behind some of its tokens a text can be continued with any characters that are not blank, each
as a token of its own. -/
theorem Token.scan_continued {text : String} {taken rest : List Token}
    (split : scan text = taken ++ rest) (before : ∀ token ∈ taken, token.kind ≠ .eof)
    {missing : List Char} (visible : ∀ c ∈ missing, Text.isBlank c = false) :
    ∃ continued more ending, scan continued = taken ++ (more ++ [ending]) ∧ ending.kind = .eof ∧
      more.map look = (missing.map ofChar).map look := by
  obtain ⟨start, after, pos, -, again⟩ := Source.scan_append split before
  obtain ⟨more, ending, scanned, last, same⟩ := Source.scan_spaced visible pos
  refine ⟨String.ofList (start ++ Source.spaced missing), more, ending, ?_, last, same⟩
  rw [← scanned, ← again _ (Source.replaces_spaced missing after), scan, Source.ofString,
    String.toList_ofList]
  rfl

end Calculator

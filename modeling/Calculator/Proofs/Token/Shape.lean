import Calculator.Proofs.Token.Continuation

namespace Calculator.Token

/-- The patterns of tokens: `[0-9]+([.][0-9]*)?` for numbers, `[_A-Za-z][_A-Za-z0-9]*` for words and
keywords, and one character for the others, which is in no other pattern if the token is invalid.
The end of the text has no characters. -/
inductive Shape : Kind → List Char → Prop where
  | whole {digits : List Char} :
    digits ≠ [] → (∀ d ∈ digits, isDigit d = true) → Shape .number digits
  | pointed {digits fraction : List Char} :
    digits ≠ [] → (∀ d ∈ digits, isDigit d = true) → (∀ d ∈ fraction, isDigit d = true) →
      Shape .number (digits ++ '.' :: fraction)
  | word {first : Char} {more : List Char} :
    isLetter first = true → (∀ d ∈ more, isWordChar d = true) → Shape .word (first :: more)
  | keyword {first : Char} {more : List Char} :
    isLetter first = true → (∀ d ∈ more, isWordChar d = true) → Shape .keyword (first :: more)
  | operator {c : Char} : isOperator c = true → Shape .operator [c]
  | punctuation {c : Char} : isPunctuation c = true → Shape .punctuation [c]
  | invalid {c : Char} :
    isWordChar c = false → isOperator c = false → isPunctuation c = false → Shape .invalid [c]
  | eof : Shape .eof []

/-- The kinds whose tokens can have any number of characters. -/
def Kind.Extends (kind : Kind) : Prop :=
  kind ∈ [.number, .word, .keyword]

/-- The first of the characters are a token of the kind, and it goes on as long as it can. -/
structure Munch (chars : List Char) (kind : Kind) (taken after : List Char) : Prop where
  split : chars = taken ++ after
  shape : Shape kind taken
  keyword : kind = .keyword ↔ isKeyword (String.ofList taken) = true
  maximal : kind.Extends → ∀ c ∈ after.head?, ¬Shape kind (taken ++ [c])

section Classes

variable {c : Char}

theorem isDigit_iff : isDigit c = true ↔ 48 ≤ c.toNat ∧ c.toNat ≤ 57 := by
  simp only [isDigit, Bool.and_eq_true, decide_eq_true_eq, Char.le_def, UInt32.le_iff_toNat_le]
  rfl

theorem isLetter_iff :
    isLetter c = true ↔
      (c.toNat = 95 ∨ 97 ≤ c.toNat ∧ c.toNat ≤ 122) ∨ 65 ≤ c.toNat ∧ c.toNat ≤ 90 := by
  simp only [isLetter, Bool.or_eq_true, Bool.and_eq_true, decide_eq_true_eq, beq_iff_eq,
    Char.le_def, UInt32.le_iff_toNat_le, ← Char.toNat_inj]
  rfl

theorem isOperator_iff :
    isOperator c = true ↔
      (((c.toNat = 43 ∨ c.toNat = 45) ∨ c.toNat = 42) ∨ c.toNat = 47) ∨ c.toNat = 94 := by
  simp only [isOperator, Bool.or_eq_true, beq_iff_eq, ← Char.toNat_inj]
  rfl

theorem isPunctuation_iff :
    isPunctuation c = true ↔
      ((c.toNat = 61 ∨ c.toNat = 40) ∨ c.toNat = 41) ∨ c.toNat = 44 := by
  simp only [isPunctuation, Bool.or_eq_true, beq_iff_eq, ← Char.toNat_inj]
  rfl

theorem not_isOperator_of_isPunctuation (punctuation : isPunctuation c = true) :
    ¬isOperator c = true := by
  rw [isPunctuation_iff] at punctuation
  rw [isOperator_iff]
  omega

theorem not_symbol_of_isDigit (digit : isDigit c = true) :
    ¬isOperator c = true ∧ ¬isPunctuation c = true := by
  rw [isDigit_iff] at digit
  rw [isOperator_iff, isPunctuation_iff]
  omega

theorem not_symbol_of_isLetter (letter : isLetter c = true) :
    ¬isOperator c = true ∧ ¬isPunctuation c = true ∧ ¬isDigit c = true := by
  rw [isLetter_iff] at letter
  rw [isOperator_iff, isPunctuation_iff, isDigit_iff]
  omega

theorem isBlank_eq_false
    (visible : isWordChar c = true ∨ isOperator c = true ∨ isPunctuation c = true ∨ c = '.') :
    Text.isBlank c = false := by
  have range : 40 ≤ c.toNat ∧ c.toNat ≤ 122 := by
    have point : '.'.toNat = 46 := rfl
    simp only [isWordChar, Bool.or_eq_true, isDigit_iff, isLetter_iff, isOperator_iff,
      isPunctuation_iff, ← Char.toNat_inj] at visible
    omega
  simp only [Text.isBlank, Bool.or_eq_false_iff, Bool.and_eq_false_iff, decide_eq_false_iff_not,
    beq_eq_false_iff_ne, ne_eq]
  omega

end Classes

theorem exists_letter_of_isKeyword {chars : List Char}
    (keyword : isKeyword (String.ofList chars) = true) :
    ∃ first more, chars = first :: more ∧ isLetter first = true := by
  simp only [isKeyword, Bool.or_eq_true, beq_iff_eq] at keyword
  rcases keyword with text | text
  · have chars := congrArg String.toList text
    rw [String.toList_ofList] at chars
    exact ⟨'l', ['e', 't'], chars, by decide⟩
  · have chars := congrArg String.toList text
    rw [String.toList_ofList] at chars
    exact ⟨'c', ['o', 'n', 's', 't'], chars, by decide⟩

namespace Shape

/-- Behind the leading digits of a number there is nothing, or a point and digits. -/
theorem behind_digits {digits behind : List Char} (shape : Shape .number (digits ++ behind))
    (inside : ∀ d ∈ digits, isDigit d = true) (outside : ∀ d ∈ behind.head?, isDigit d = false) :
    behind = [] ∨ ∃ fraction, (∀ d ∈ fraction, isDigit d = true) ∧ behind = '.' :: fraction := by
  have dropped := (span_append inside outside).2
  generalize digits ++ behind = chars at shape dropped
  rw [← dropped]
  cases shape with
  | whole _ all => exact .inl (List.dropWhile_eq_nil_iff.mpr all)
  | @pointed _ fraction _ all places =>
    have point : ∀ d ∈ ('.' :: fraction).head?, isDigit d = false := by
      rintro d ⟨⟩
      decide
    exact .inr ⟨fraction, places, (span_append all point).2⟩

theorem exists_digit {chars : List Char} (shape : Shape .number chars) :
    ∃ c more, chars = c :: more ∧ isDigit c = true := by
  cases shape with
  | whole present all =>
    obtain ⟨c, more, rfl⟩ := List.exists_cons_of_ne_nil present
    exact ⟨c, more, rfl, all c List.mem_cons_self⟩
  | @pointed digits fraction present all places =>
    obtain ⟨c, more, rfl⟩ := List.exists_cons_of_ne_nil present
    exact ⟨c, more ++ '.' :: fraction, rfl, all c List.mem_cons_self⟩

theorem eq_eof_iff {kind : Kind} {chars : List Char} (shape : Shape kind chars) :
    kind = .eof ↔ chars = [] := by
  cases shape <;> simp_all

theorem visible {kind : Kind} {chars : List Char} (shape : Shape kind chars)
    (valid : kind ≠ .invalid) : ∀ c ∈ chars, Text.isBlank c = false := by
  have ofDigit : ∀ d, isDigit d = true → Text.isBlank d = false :=
    fun d digit => isBlank_eq_false (.inl (by simp [isWordChar, digit]))
  have ofLetter : ∀ d, isLetter d = true → Text.isBlank d = false :=
    fun d letter => isBlank_eq_false (.inl (by simp [isWordChar, letter]))
  have ofWord : ∀ d, isWordChar d = true → Text.isBlank d = false :=
    fun d char => isBlank_eq_false (.inl char)
  cases shape with
  | whole _ digits => exact fun d member => ofDigit d (digits d member)
  | pointed _ digits places =>
    rw [List.forall_mem_append, List.forall_mem_cons]
    exact ⟨fun d member => ofDigit d (digits d member), by decide,
      fun d member => ofDigit d (places d member)⟩
  | word letter more =>
    exact List.forall_mem_cons.mpr ⟨ofLetter _ letter, fun d member => ofWord d (more d member)⟩
  | keyword letter more =>
    exact List.forall_mem_cons.mpr ⟨ofLetter _ letter, fun d member => ofWord d (more d member)⟩
  | operator operator =>
    exact List.forall_mem_singleton.mpr (isBlank_eq_false (.inr (.inl operator)))
  | punctuation mark =>
    exact List.forall_mem_singleton.mpr (isBlank_eq_false (.inr (.inr (.inl mark))))
  | invalid => exact absurd rfl valid
  | eof => exact List.forall_mem_nil _

end Shape

/-- What starts with another character than a letter is not a keyword. -/
private theorem not_isKeyword {c : Char} (other : ¬isLetter c = true) (more : List Char) :
    ¬isKeyword (String.ofList (c :: more)) = true := by
  intro keyword
  obtain ⟨first, tail, same, letter⟩ := exists_letter_of_isKeyword keyword
  cases same
  exact other letter

private theorem not_isLetter_of_isDigit {c : Char} (digit : isDigit c = true) :
    ¬isLetter c = true :=
  fun letter => (not_symbol_of_isLetter letter).2.2 digit

/-- A number is read as far as it goes: behind a point up to the next character that is not a digit,
and without a point up to a character that is neither. -/
private theorem numberChars_munch {c : Char} (digit : isDigit c = true) (rest : List Char) :
    Munch (c :: rest) .number (numberChars (c :: rest)).1 (numberChars (c :: rest)).2 := by
  obtain ⟨more, behind, rfl, digits, ended⟩ : ∃ more behind, rest = more ++ behind ∧
      (∀ d ∈ c :: more, isDigit d = true) ∧ ∀ d ∈ behind.head?, isDigit d = false :=
    ⟨_, _, List.takeWhile_append_dropWhile.symm,
      List.forall_mem_cons.mpr ⟨digit, fun d member => List.mem_takeWhile_imp member⟩,
      head_dropWhile isDigit rest⟩
  rw [← List.cons_append]
  by_cases point : ∃ fraction, behind = '.' :: fraction
  · obtain ⟨fraction, rfl⟩ := point
    have places : ∀ d ∈ fraction.takeWhile isDigit, isDigit d = true :=
      fun d member => List.mem_takeWhile_imp member
    rw [numberChars_of_point digits]
    refine ⟨by simp, .pointed (by simp) digits places, ?_, ?_⟩
    · exact iff_of_false (by simp) (not_isKeyword (not_isLetter_of_isDigit digit) _)
    · intro _ d next longer
      have stopped := head_dropWhile isDigit fraction d next
      rw [List.append_assoc] at longer
      obtain none | ⟨others, all, same⟩ := longer.behind_digits digits ended
      · cases none
      · cases same
        rw [all d (by simp)] at stopped
        cases stopped
  · have pointless : ∀ d ∈ behind.head?, d ≠ '.' := by
      rintro d head rfl
      exact point (List.head?_eq_some_iff.mp head)
    rw [numberChars_of_ended digits ended pointless]
    refine ⟨rfl, .whole (by simp) digits, ?_, ?_⟩
    · exact iff_of_false (by simp) (not_isKeyword (not_isLetter_of_isDigit digit) _)
    · intro _ d next longer
      have single : ∀ e ∈ [d].head?, isDigit e = false := by
        rintro e ⟨⟩
        exact ended d next
      obtain none | ⟨others, -, same⟩ := longer.behind_digits digits single
      · cases none
      · cases same
        exact pointless '.' next rfl

/-- What is read is a token that goes on as long as it can. -/
theorem lexeme_munch (c : Char) (rest : List Char) :
    Munch (c :: rest) (lexeme c rest).1 (lexeme c rest).2.1 (lexeme c rest).2.2 := by
  by_cases operator : isOperator c = true
  · have other : ¬isLetter c = true := fun letter => (not_symbol_of_isLetter letter).1 operator
    rw [lexeme, if_pos operator]
    exact ⟨rfl, .operator operator, iff_of_false (by simp) (not_isKeyword other _),
      by simp [Kind.Extends]⟩
  by_cases punctuation : isPunctuation c = true
  · have other : ¬isLetter c = true :=
      fun letter => (not_symbol_of_isLetter letter).2.1 punctuation
    rw [lexeme, if_neg operator, if_pos punctuation]
    exact ⟨rfl, .punctuation punctuation, iff_of_false (by simp) (not_isKeyword other _),
      by simp [Kind.Extends]⟩
  by_cases digit : isDigit c = true
  · rw [lexeme, if_neg operator, if_neg punctuation, if_pos digit]
    exact numberChars_munch digit rest
  by_cases letter : isLetter c = true
  · rw [lexeme, if_neg operator, if_neg punctuation, if_neg digit, if_pos letter]
    have inside : ∀ d ∈ rest.takeWhile isWordChar, isWordChar d = true :=
      fun d member => List.mem_takeWhile_imp member
    have split : c :: rest = c :: rest.takeWhile isWordChar ++ rest.dropWhile isWordChar := by
      rw [List.cons_append, List.takeWhile_append_dropWhile]
    have ended := head_dropWhile isWordChar rest
    dsimp only
    split
    · rename_i keyword
      refine ⟨split, .keyword letter inside, iff_of_true rfl keyword, ?_⟩
      intro _ d next longer
      cases longer with
      | keyword _ all =>
        have stopped := ended d next
        rw [all d (by simp)] at stopped
        cases stopped
    · rename_i plain
      refine ⟨split, .word letter inside, iff_of_false (by simp) plain, ?_⟩
      intro _ d next longer
      cases longer with
      | word _ all =>
        have stopped := ended d next
        rw [all d (by simp)] at stopped
        cases stopped
  · have char : isWordChar c = false := by simp [isWordChar, letter, digit]
    rw [lexeme, if_neg operator, if_neg punctuation, if_neg digit, if_neg letter]
    exact ⟨rfl, .invalid char (by simpa using operator) (by simpa using punctuation),
      iff_of_false (by simp) (not_isKeyword letter _), by simp [Kind.Extends]⟩

private theorem isDigit_head {c : Char} {rest digits behind : List Char} (present : digits ≠ [])
    (all : ∀ d ∈ digits, isDigit d = true) (split : c :: rest = digits ++ behind) :
    isDigit c = true := by
  obtain ⟨first, more, rfl⟩ := List.exists_cons_of_ne_nil present
  rw [(List.cons.inj split).1]
  exact all first List.mem_cons_self

theorem lexeme_of_isDigit {c : Char} (digit : isDigit c = true) (rest : List Char) :
    lexeme c rest = (.number, numberChars (c :: rest)) := by
  obtain ⟨operator, punctuation⟩ := not_symbol_of_isDigit digit
  rw [lexeme, if_neg operator, if_neg punctuation, if_pos digit]

theorem lexeme_of_isLetter {first : Char} (letter : isLetter first = true)
    {more after : List Char} (inside : ∀ d ∈ more, isWordChar d = true)
    (outside : ∀ d ∈ after.head?, isWordChar d = false) :
    lexeme first (more ++ after) =
      (if isKeyword (String.ofList (first :: more)) then .keyword else .word, first :: more,
        after) := by
  obtain ⟨operator, punctuation, digit⟩ := not_symbol_of_isLetter letter
  obtain ⟨taken, dropped⟩ := span_append inside outside
  rw [lexeme, if_neg operator, if_neg punctuation, if_neg digit, if_pos letter, taken, dropped]

/-- A token that goes on as long as it can is the one that is read. -/
theorem Munch.lexeme_eq {c : Char} {rest taken after : List Char} {kind : Kind}
    (munch : Munch (c :: rest) kind taken after) (visible : kind ≠ .eof) :
    lexeme c rest = (kind, taken, after) := by
  obtain ⟨split, shape, keyword, maximal⟩ := munch
  cases shape with
  | @whole digits present all =>
    have digit := isDigit_head present all split
    have ended : ∀ d ∈ after.head?, isDigit d = false := by
      intro d next
      by_contra further
      apply maximal (by simp [Kind.Extends]) d next
      exact .whole (by simp) (List.forall_mem_append.mpr ⟨all, by simpa using further⟩)
    have pointless : ∀ d ∈ after.head?, d ≠ '.' := by
      rintro d next rfl
      exact maximal (by simp [Kind.Extends]) '.' next (.pointed present all (by simp))
    rw [lexeme_of_isDigit digit, split, numberChars_of_ended all ended pointless]
  | @pointed digits fraction present all places =>
    have digit := isDigit_head present all (split.trans (List.append_assoc _ _ _))
    have ended : ∀ d ∈ after.head?, isDigit d = false := by
      intro d next
      by_contra further
      apply maximal (by simp [Kind.Extends]) d next
      rw [List.append_assoc, List.cons_append]
      exact .pointed present all (List.forall_mem_append.mpr ⟨places, by simpa using further⟩)
    obtain ⟨taken, dropped⟩ := span_append places ended
    rw [lexeme_of_isDigit digit, split, List.append_assoc, List.cons_append,
      numberChars_of_point all, taken, dropped]
  | @word first more letter inside =>
    obtain ⟨rfl, rfl⟩ : c = first ∧ rest = more ++ after := by simpa using split
    have ended : ∀ d ∈ after.head?, isWordChar d = false := by
      intro d next
      by_contra further
      apply maximal (by simp [Kind.Extends]) d next
      exact .word letter (List.forall_mem_append.mpr ⟨inside, by simpa using further⟩)
    have plain : ¬isKeyword (String.ofList (c :: more)) = true :=
      fun listed => nomatch keyword.mpr listed
    rw [lexeme_of_isLetter letter inside ended, if_neg plain]
  | @keyword first more letter inside =>
    obtain ⟨rfl, rfl⟩ : c = first ∧ rest = more ++ after := by simpa using split
    have ended : ∀ d ∈ after.head?, isWordChar d = false := by
      intro d next
      by_contra further
      apply maximal (by simp [Kind.Extends]) d next
      exact .keyword letter (List.forall_mem_append.mpr ⟨inside, by simpa using further⟩)
    rw [lexeme_of_isLetter letter inside ended, if_pos (keyword.mp rfl)]
  | @operator first operator =>
    obtain ⟨rfl, rfl⟩ : c = first ∧ rest = after := by simpa using split
    rw [lexeme, if_pos operator]
  | @punctuation first punctuation =>
    obtain ⟨rfl, rfl⟩ : c = first ∧ rest = after := by simpa using split
    rw [lexeme, if_neg (not_isOperator_of_isPunctuation punctuation), if_pos punctuation]
  | @invalid first char operator punctuation =>
    obtain ⟨rfl, rfl⟩ : c = first ∧ rest = after := by simpa using split
    simp only [isWordChar, Bool.or_eq_false_iff] at char
    simp [lexeme, char, operator, punctuation]
  | eof => exact absurd rfl visible

theorem Munch.visible {c : Char} {rest taken after : List Char} {kind : Kind}
    (munch : Munch (c :: rest) kind taken after) (first : Text.isBlank c = false) :
    ∀ d ∈ taken, Text.isBlank d = false := by
  by_cases invalid : kind = .invalid
  · subst invalid
    obtain ⟨split, shape, -, -⟩ := munch
    cases shape
    rw [List.forall_mem_singleton, ← (List.cons.inj split).1]
    exact first
  · exact munch.shape.visible invalid

end Calculator.Token

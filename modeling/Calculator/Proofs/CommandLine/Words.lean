import Calculator.CommandLine.Arguments

namespace Calculator.CommandLine

variable {ι : Type} {specs : List (OptionSpec ι)}

theorem Reading.after_after (first second : List (Event ι)) (reading : Reading ι) :
    (reading.after second).after first = reading.after (first ++ second) := by
  simp [after]

/-- Words that are options with their values and nothing else, and the events they ask for. -/
inductive OnlyOptions (specs : List (OptionSpec ι)) : List (Word ι) → List (Event ι) → Prop where
  | nil : OnlyOptions specs [] []
  | complete {use : Use ι} {events more : List (Event ι)} {words : List (Word ι)}
      (group : use.group specs = .complete events) (rest : OnlyOptions specs words more) :
    OnlyOptions specs (.option use :: words) (events ++ more)
  | valued {use : Use ι} {spec : OptionSpec ι} {value : String} {events more : List (Event ι)}
      {words : List (Word ι)} (group : use.group specs = .wanting events spec)
      (rest : OnlyOptions specs words more) :
    OnlyOptions specs (.option use :: .operand value :: words)
      (events ++ [.option spec (some value)] ++ more)

namespace OnlyOptions

variable {words others : List (Word ι)} {events more : List (Event ι)}

theorem append (first : OnlyOptions specs words events) (second : OnlyOptions specs others more) :
    OnlyOptions specs (words ++ others) (events ++ more) := by
  induction first with
  | nil => exact second
  | complete group _ ih =>
    rw [List.append_assoc]
    exact .complete group ih
  | valued group _ ih =>
    rw [List.append_assoc]
    exact .valued group ih

/-- The events come first, and whatever follows is read as if it stood alone. -/
theorem readWords_append (first : OnlyOptions specs words events) (taken : Bool)
    (rest : List (Word ι)) :
    readWords specs taken (words ++ rest) = (readWords specs taken rest).after events := by
  induction first with
  | nil => rfl
  | complete group _ ih =>
    simp only [List.cons_append, readWords, group, ih, Reading.after_after]
  | valued group _ ih =>
    simp only [List.cons_append, readWords, group, ih, Reading.after_after]

theorem readWords_eq (only : OnlyOptions specs words events) (taken : Bool) :
    readWords specs taken words = { events := events } := by
  have read := only.readWords_append taken []
  simpa [readWords, Reading.after] using read

theorem any_isOption (only : OnlyOptions specs words events) (some : words ≠ []) :
    words.any Word.isOption = true := by
  cases only with
  | nil => exact absurd rfl some
  | complete => rfl
  | valued => rfl

/-- An operand is taken for what it is, whether options follow it or not. -/
theorem readWords_operand (only : OnlyOptions specs words events) (text : String) :
    readWords specs false (.operand text :: words) = { events := .operand text :: events } := by
  by_cases empty : words = []
  · subst empty
    cases only
    rfl
  · simp [readWords, only.any_isOption empty, only.readWords_eq, Reading.after, Word.text]

end OnlyOptions

/-- The reading has no problem, leaves no word untaken and takes no operand. -/
structure Reading.Plain (reading : Reading ι) : Prop where
  sound : reading.problem = none
  taken : reading.extras = []
  bare : ∀ text, .operand text ∉ reading.events

theorem Reading.Plain.of_after {events : List (Event ι)} {reading : Reading ι}
    (plain : (reading.after events).Plain) : reading.Plain :=
  ⟨plain.sound, plain.taken, fun text member => plain.bare text (List.mem_append_right _ member)⟩

theorem takeOperand_operand (text : String) (rest : List (Word ι)) :
    (takeOperand (.operand text :: rest)).1 = [.operand text] := by
  match rest with
  | [] => rfl
  | .separator :: _ => rfl
  | .operand _ :: _ => rfl
  | .option _ :: _ => rfl
  | .unknown _ :: _ => rfl

/-- Without a separator, a plain reading is one of options alone. The induction is that of the
reading: any other word is left untaken or taken for the operand. -/
theorem onlyOptions_of_readWords (taken : Bool) (words : List (Word ι))
    (unseparated : Word.separator ∉ words) (plain : (readWords specs taken words).Plain) :
    OnlyOptions specs words (readWords specs taken words).events := by
  fun_induction readWords specs taken words with
  | case1 => exact .nil
  | case2 taken text rest => cases plain.taken
  | case3 taken use rest problem => cases plain.sound
  | case4 taken use rest events group ih =>
    exact .complete group (ih (List.not_mem_of_not_mem_cons unseparated) plain.of_after)
  | case5 taken use events spec group value rest ih =>
    have shorter := List.not_mem_of_not_mem_cons (List.not_mem_of_not_mem_cons unseparated)
    exact .valued group (ih shorter plain.of_after)
  | case6 taken use rest events spec => cases plain.sound
  | case7 word rest => cases plain.taken
  | case8 taken word rest => exact absurd List.mem_cons_self (plain.bare word.text)
  | case9 word rest => cases plain.taken
  | case10 taken word rest known named last free events left split =>
    cases word with
    | operand text =>
      have event : events = [.operand text] := by
        rw [← takeOperand_operand text rest, split]
      exact absurd (event ▸ List.mem_cons_self) (plain.bare text)
    | separator => exact absurd List.mem_cons_self unseparated
    | option use => exact (named use rfl).elim
    | unknown text => exact (known text rfl).elim

/-- No word is taken for the separator when it is told apart alone. -/
theorem classify_ne_separator (text : String) : classify specs text ≠ .ok .separator := by
  fun_cases classify specs text <;> simp

theorem classifyAll_cons_eq_ok_iff {text : String} (different : text ≠ "--") {rest : List String}
    {words : List (Word ι)} :
    classifyAll specs (text :: rest) = .ok words ↔
      ∃ word more, classify specs text = .ok word ∧ classifyAll specs rest = .ok more ∧
        words = word :: more := by
  rw [classifyAll, if_neg different]
  rcases classify specs text with problem | word
  · simp
  · rcases classifyAll specs rest with problem | more
    · simp
    · simp [eq_comm]

theorem separator_not_mem_of_classifyAll {argv : List String} {words : List (Word ι)}
    (unseparated : "--" ∉ argv) (classified : classifyAll specs argv = .ok words) :
    Word.separator ∉ words := by
  induction argv generalizing words with
  | nil =>
    cases classified
    exact List.not_mem_nil
  | cons text rest ih =>
    obtain ⟨different, others⟩ := List.ne_and_not_mem_of_not_mem_cons unseparated
    obtain ⟨word, more, first, second, rfl⟩ :=
      (classifyAll_cons_eq_ok_iff different.symm).mp classified
    apply List.not_mem_cons_of_ne_of_not_mem
    · rintro rfl
      exact classify_ne_separator text first
    · exact ih others second

theorem classifyAll_append {first second : List String} {words more : List (Word ι)}
    (unseparated : "--" ∉ first) (early : classifyAll specs first = .ok words)
    (late : classifyAll specs second = .ok more) :
    classifyAll specs (first ++ second) = .ok (words ++ more) := by
  induction first generalizing words with
  | nil =>
    cases early
    exact late
  | cons text rest ih =>
    obtain ⟨different, others⟩ := List.ne_and_not_mem_of_not_mem_cons unseparated
    obtain ⟨word, further, first, second, rfl⟩ :=
      (classifyAll_cons_eq_ok_iff different.symm).mp early
    exact (classifyAll_cons_eq_ok_iff different.symm).mpr
      ⟨word, further ++ more, first, ih others second, rfl⟩

theorem attachedValue_eq_some {text : String} (different : text ≠ "--") :
    attachedValue text.toList = some text := by
  have chars : text.toList ≠ ['-', '-'] := by
    intro same
    exact different (String.toList_injective same)
  simp [attachedValue, chars]

theorem splitEquals_append {chars : List Char} (bare : '=' ∉ chars) (value : List Char) :
    splitEquals (chars ++ '=' :: value) = (chars, some value) := by
  have before : ∀ c ∈ chars, decide (c ≠ '=') = true := by
    intro c member
    apply decide_eq_true
    rintro rfl
    exact bare member
  rw [splitEquals, List.dropWhile_append_of_pos before, List.takeWhile_append_of_pos before]
  simp

/-- A word with an equals sign is no name of an option if no name has one. -/
theorem findOption?_eq_none (names : ∀ entry ∈ nameTable specs, '=' ∉ entry.1.toList)
    {text : String} (sign : '=' ∈ text.toList) : findOption? specs text = none := by
  apply List.lookup_eq_none_iff.mpr
  intro entry member
  apply bne_iff_ne.mpr
  rintro rfl
  exact names entry member sign

/-- The words of a command line are options with their values and nothing else, without a separator
among them, and these are the events they ask for. -/
structure Asks (specs : List (OptionSpec ι)) (argv : List String) (events : List (Event ι)) :
    Prop where
  unseparated : "--" ∉ argv
  options : ∃ words, classifyAll specs argv = .ok words ∧ OnlyOptions specs words events

namespace Asks

variable {argv before behind : List String} {events early late : List (Event ι)}

theorem nil : Asks specs [] [] :=
  ⟨List.not_mem_nil, [], rfl, .nil⟩

theorem append (first : Asks specs before early) (second : Asks specs behind late) :
    Asks specs (before ++ behind) (early ++ late) := by
  obtain ⟨words, classified, only⟩ := first.options
  obtain ⟨more, also, further⟩ := second.options
  refine ⟨?_, words ++ more, classifyAll_append first.unseparated classified also,
    only.append further⟩
  exact fun member => (List.mem_append.mp member).elim first.unseparated second.unseparated

theorem read_eq (asks : Asks specs argv events) : read specs argv = { events := events } := by
  obtain ⟨words, classified, only⟩ := asks.options
  simp only [read, classified, only.readWords_eq]

/-- Options before an operand and behind it ask for what they ask for without it. -/
theorem read_operand (first : Asks specs before early) (second : Asks specs behind late)
    {text : String} (operand : classify specs text = .ok (.operand text))
    (different : text ≠ "--") :
    read specs (before ++ text :: behind) = { events := early ++ .operand text :: late } := by
  obtain ⟨words, classified, only⟩ := first.options
  obtain ⟨more, also, further⟩ := second.options
  have taken : classifyAll specs (text :: behind) = .ok (.operand text :: more) :=
    (classifyAll_cons_eq_ok_iff different).mpr ⟨_, _, operand, also, rfl⟩
  simp only [read, classifyAll_append first.unseparated classified taken,
    only.readWords_append, further.readWords_operand, Reading.after]

/-- A command line without a separator whose reading is plain is made of options alone. -/
theorem of_plain (unseparated : "--" ∉ argv) (plain : (read specs argv).Plain) :
    Asks specs argv (read specs argv).events := by
  simp only [read] at plain ⊢
  rcases classified : classifyAll specs argv with problem | words
  · rw [classified] at plain
    cases plain.sound
  · rw [classified] at plain
    exact ⟨unseparated, words, classified, onlyOptions_of_readWords false words
      (separator_not_mem_of_classifyAll unseparated classified) plain⟩

/-- A value behind the long name of an option and an equals sign is the value of the option. -/
theorem attached (names : ∀ entry ∈ nameTable specs, '=' ∉ entry.1.toList) {name : String}
    {letters : List Char} (long : name.toList = '-' :: '-' :: letters) {spec : OptionSpec ι}
    (found : findOption? specs name = some spec) (takes : spec.takesValue = true)
    (value : String) :
    Asks specs [name ++ "=" ++ value] [.option spec (attachedValue value.toList)] := by
  have chars : (name ++ "=" ++ value).toList = name.toList ++ '=' :: value.toList := by simp
  have sign : '=' ∈ (name ++ "=" ++ value).toList := by simp
  have bare : '=' ∉ name.toList := by
    intro within
    rw [findOption?_eq_none names within] at found
    cases found
  have different : "--" ≠ name ++ "=" ++ value := by
    intro same
    rw [← same] at sign
    revert sign
    decide
  have word : classify specs (name ++ "=" ++ value) =
      .ok (.option ⟨spec, name, some value.toList⟩) := by
    simp only [classify, findOption?_eq_none names sign, chars, splitEquals_append bare,
      String.ofList_toList, found]
    simp [long]
  have group : Use.group specs ⟨spec, name, some value.toList⟩ =
      .complete [.option spec (attachedValue value.toList)] := by
    simp [Use.group, long, valuedOption, takes]
  refine ⟨by simpa using different, [.option ⟨spec, name, some value.toList⟩], ?_,
    .complete group .nil⟩
  exact (classifyAll_cons_eq_ok_iff different.symm).mpr ⟨_, [], word, rfl, rfl⟩

end Asks

end Calculator.CommandLine

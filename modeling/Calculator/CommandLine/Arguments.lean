import Calculator.Text.DecimalDigit
import Calculator.Text.Quoted

/-! Reading the words of a command line: options with and without a value, and at most one operand.
Words are told apart before any of them takes effect, so an ambiguous abbreviation is reported
first. What is left is a list of events in the order of the words, up to the first problem. -/

namespace Calculator.CommandLine

variable {ι : Type}

/-- An option: what it stands for, the names it goes by, and whether a value belongs to it. -/
structure OptionSpec (ι : Type) where
  key : ι
  names : List String
  takesValue : Bool

def OptionSpec.display (spec : OptionSpec ι) : String :=
  "/".intercalate spec.names

/-- Every name of an option with the option, in the order of declaration. -/
def nameTable (specs : List (OptionSpec ι)) : List (String × OptionSpec ι) :=
  specs.flatMap fun spec => spec.names.map (·, spec)

def findOption? (specs : List (OptionSpec ι)) (name : String) : Option (OptionSpec ι) :=
  (nameTable specs).lookup name

def optionProblem (name : String) (problem : String) : String :=
  "argument " ++ name ++ ": " ++ problem

/-- An option as it was written, with the text that is attached to its name. -/
structure Use (ι : Type) where
  spec : OptionSpec ι
  name : String
  attached : Option (List Char)

inductive Word (ι : Type) where
  | operand (text : String)
  | separator
  | option (use : Use ι)
  | unknown (text : String)

def Word.isOption : Word ι → Bool
  | .option _ => true
  | .unknown _ => true
  | _ => false

/-- A word as it was written; of an option only the name. -/
def Word.text : Word ι → String
  | .operand text => text
  | .separator => "--"
  | .option use => use.name
  | .unknown text => text

/-- A minus sign with digits, or with digits around a point of which those before it may lack; one
line feed may follow. -/
def isNegativeNumber (chars : List Char) : Bool :=
  let isDigit (c : Char) := (Text.digitValue? c).isSome
  let body := if chars.getLast? = some '\n' then chars.dropLast else chars
  match body with
  | '-' :: digits =>
    match digits.dropWhile isDigit with
    | [] => !digits.isEmpty
    | '.' :: fraction => !fraction.isEmpty && fraction.all isDigit
    | _ => false
  | _ => false

/-- The part of a word before its first equals sign, and the part behind it if there is one. -/
def splitEquals (chars : List Char) : List Char × Option (List Char) :=
  match chars.dropWhile (· ≠ '=') with
  | [] => (chars, none)
  | _ :: value => (chars.takeWhile (· ≠ '='), some value)

/-- The options that a word with a leading minus sign may abbreviate. After two minus signs it is
the beginning of a name; after one, a name of one letter may have a text attached. -/
def candidates (specs : List (OptionSpec ι)) (chars : List Char) : List (Use ι) :=
  match chars with
  | '-' :: '-' :: _ =>
    let (start, attached) := splitEquals chars
    (nameTable specs).filterMap fun (name, spec) =>
      if start.isPrefixOf name.toList then some ⟨spec, name, attached⟩ else none
  | _ =>
    (nameTable specs).filterMap fun (name, spec) =>
      if name.toList = chars.take 2 then some ⟨spec, name, some (chars.drop 2)⟩
      else if chars.isPrefixOf name.toList then some ⟨spec, name, none⟩
      else none

/-- What a word is, if no separator stands before it; an abbreviation of several options is a
problem. -/
def classify (specs : List (OptionSpec ι)) (text : String) : Except String (Word ι) :=
  let chars := text.toList
  if chars.head? ≠ some '-' then .ok (.operand text)
  else
    match findOption? specs text with
    | some spec => .ok (.option ⟨spec, text, none⟩)
    | none =>
      if chars.length = 1 then .ok (.operand text)
      else
        let (start, attached) := splitEquals chars
        let name := String.ofList start
        match attached, findOption? specs name with
        | some attached, some spec => .ok (.option ⟨spec, name, some attached⟩)
        | _, _ =>
          match candidates specs chars with
          | [use] => .ok (.option use)
          | [] =>
            if isNegativeNumber chars || chars.contains ' ' then .ok (.operand text)
            else .ok (.unknown text)
          | several =>
            .error ("ambiguous option: " ++ text ++ " could match " ++
              ", ".intercalate (several.map (·.name)))

/-- What the words of a command line are; behind a separator all of them are operands. -/
def classifyAll (specs : List (OptionSpec ι)) : List String → Except String (List (Word ι))
  | [] => .ok []
  | text :: rest =>
    if text = "--" then .ok (.separator :: rest.map .operand)
    else
      match classify specs text with
      | .error problem => .error problem
      | .ok word =>
        match classifyAll specs rest with
        | .error problem => .error problem
        | .ok words => .ok (word :: words)

/-- Something that a command line asks for; an option has a value if one belongs to it and was not
left out. -/
inductive Event (ι : Type) where
  | option (spec : OptionSpec ι) (value : Option String)
  | operand (text : String)

/-- What a command line asks for, the problem that ends it, and the words that nothing took. -/
structure Reading (ι : Type) where
  events : List (Event ι) := []
  problem : Option String := none
  extras : List String := []

namespace Reading

def after (events : List (Event ι)) (reading : Reading ι) : Reading ι :=
  { reading with events := events ++ reading.events }

def withExtra (text : String) (reading : Reading ι) : Reading ι :=
  { reading with extras := text :: reading.extras }

def failed (problem : String) : Reading ι :=
  { problem := some problem }

end Reading

/-- What a single word of options comes to. -/
inductive Group (ι : Type) where
  | complete (events : List (Event ι))
  | wanting (events : List (Event ι)) (spec : OptionSpec ι)
  | refused (problem : String)

/-- The group with an option without a value before it. -/
def Group.afterFlag (spec : OptionSpec ι) : Group ι → Group ι
  | .complete events => .complete (.option spec none :: events)
  | .wanting events wanted => .wanting (.option spec none :: events) wanted
  | .refused problem => .refused problem

/-- An option takes no value and has one attached. -/
def ignoredValue (spec : OptionSpec ι) (chars : List Char) : Group ι :=
  .refused (optionProblem spec.display
    ("ignored explicit argument " ++ Text.quoted (String.ofList chars)))

def bareOption (spec : OptionSpec ι) : Group ι :=
  if spec.takesValue then .wanting [] spec else .complete [.option spec none]

/-- The value of an option from the text attached to it: a separator in its place leaves the value
out. -/
def attachedValue (chars : List Char) : Option String :=
  if chars = ['-', '-'] then none else some (String.ofList chars)

/-- An option with a text attached that can only be its value. -/
def valuedOption (spec : OptionSpec ι) (chars : List Char) : Group ι :=
  if spec.takesValue then .complete [.option spec (attachedValue chars)]
  else ignoredValue spec chars

/-- An option of one letter with a text attached: its value, or further options of one letter. -/
def letterGroup (specs : List (OptionSpec ι)) (spec : OptionSpec ι) : List Char → Group ι
  | [] => valuedOption spec []
  | letter :: more =>
    match spec.takesValue, findOption? specs (String.ofList ['-', letter]) with
    | false, some next =>
      match more with
      | [] => (bareOption next).afterFlag spec
      | following :: others => (letterGroup specs next (following :: others)).afterFlag spec
    | _, _ => valuedOption spec (letter :: more)

def Use.group (specs : List (OptionSpec ι)) (use : Use ι) : Group ι :=
  match use.attached with
  | none => bareOption use.spec
  | some chars =>
    if use.name.toList.take 2 = ['-', '-'] then valuedOption use.spec chars
    else letterGroup specs use.spec chars

/-- The operand among words without options, and the words that are left: a separator may stand on
either side of it. -/
def takeOperand : List (Word ι) → List (Event ι) × List (Word ι)
  | .separator :: .operand text :: rest => ([.operand text], rest)
  | .separator :: rest => ([], rest)
  | .operand text :: .separator :: rest => ([.operand text], rest)
  | .operand text :: rest => ([.operand text], rest)
  | words => ([], words)

/-- Read words in order; `taken` tells whether the operand was taken. -/
def readWords (specs : List (OptionSpec ι)) (taken : Bool) : List (Word ι) → Reading ι
  | [] => {}
  | .unknown text :: rest => (readWords specs taken rest).withExtra text
  | .option use :: rest =>
    match use.group specs with
    | .refused problem => .failed problem
    | .complete events => (readWords specs taken rest).after events
    | .wanting events spec =>
      match rest with
      | .operand value :: rest =>
        (readWords specs taken rest).after (events ++ [.option spec (some value)])
      | _ => .failed (optionProblem spec.display "expected one argument")
  | word :: rest =>
    if rest.any Word.isOption then
      if taken then (readWords specs taken rest).withExtra word.text
      else (readWords specs true rest).after [.operand word.text]
    else if taken then { extras := (word :: rest).map Word.text }
    else
      let (events, left) := takeOperand (word :: rest)
      { events := events, extras := left.map Word.text }

def read (specs : List (OptionSpec ι)) (argv : List String) : Reading ι :=
  match classifyAll specs argv with
  | .error problem => .failed problem
  | .ok words => readWords specs false words

end Calculator.CommandLine

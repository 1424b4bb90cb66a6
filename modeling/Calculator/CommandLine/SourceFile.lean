import Calculator.Text.Lines

namespace Calculator.CommandLine

/-- Why something at a path cannot be read as a file: it is a directory, the path goes on behind a
file, it is longer than paths or their parts may be, it holds a zero character, or the bytes are not
UTF-8. -/
inductive Obstacle where
  | directory
  | behindFile
  | tooLong
  | zeroCharacter
  | undecodable
deriving DecidableEq

inductive SourceFile where
  | missing
  | obstructed (obstacle : Obstacle)
  | bytes (content : ByteArray)

inductive ReadError where
  | missing
  | obstructed (obstacle : Obstacle)
deriving DecidableEq

/-- The text of a file in UTF-8, with its line ends unified. -/
def SourceFile.text : SourceFile → Except ReadError String
  | .missing => .error .missing
  | .obstructed obstacle => .error (.obstructed obstacle)
  | .bytes content =>
    match String.fromUTF8? content with
    | none => .error (.obstructed .undecodable)
    | some text => .ok (String.ofList (Text.unifyLineEnds text.toList))

/-- The root that a path starts at: none, one slash, or exactly two. -/
def pathRoot : List Char → String
  | '/' :: '/' :: '/' :: _ => "/"
  | '/' :: '/' :: _ => "//"
  | '/' :: _ => "/"
  | _ => ""

/-- The parts of a path, without empty ones and without those that stay where they are. -/
def pathParts (path : String) : List String :=
  (path.splitOn "/").filter fun part => part ≠ "" && part ≠ "."

/-- A path with nothing but its root and its parts. -/
def normalPath (path : String) : String :=
  let root := pathRoot path.toList
  let parts := pathParts path
  if root = "" && parts.isEmpty then "." else root ++ "/".intercalate parts

/-- Whether a path holds a zero character, so that nothing can stand at it. -/
def hasZero (path : String) : Bool :=
  path.toList.contains '\x00'

end Calculator.CommandLine

import Calculator.CommandLine.SourceFile

namespace Calculator.CommandLine

/-- Files by the parts of their paths. -/
structure Folder where
  files : List (List String × ByteArray)

namespace Folder

def longestPart : Nat := 255

def longestPath : Nat := 4095

/-- A directory: one within the folder, or one around it. -/
inductive Place where
  | within (parts : List String)
  | around

/-- Whether a file lies somewhere below a directory of the folder. -/
def hasBelow (folder : Folder) (parts : List String) : Bool :=
  folder.files.any fun file => parts.isPrefixOf file.1

/-- Follow the parts of a path from a directory. -/
def follow (folder : Folder) : Place → List String → SourceFile
  | _, [] => .obstructed .directory
  | .around, part :: rest =>
    if part = ".." then folder.follow .around rest
    else if longestPart < part.utf8ByteSize then .obstructed .tooLong
    else .missing
  | .within parts, part :: rest =>
    if part = ".." then
      folder.follow (if parts.isEmpty then .around else .within parts.dropLast) rest
    else if longestPart < part.utf8ByteSize then .obstructed .tooLong
    else
      match folder.files.lookup (parts ++ [part]) with
      | some content => if rest.isEmpty then .bytes content else .obstructed .behindFile
      | none =>
        if folder.hasBelow (parts ++ [part]) then folder.follow (.within (parts ++ [part])) rest
        else .missing

def sourceAt (folder : Folder) (path : String) : SourceFile :=
  let normal := normalPath path
  if hasZero path then .obstructed .zeroCharacter
  else if longestPath < normal.utf8ByteSize then .obstructed .tooLong
  else
    folder.follow (if pathRoot path.toList = "" then .within [] else .around) (pathParts path)

end Folder

end Calculator.CommandLine

/-! Blank characters: what may stand between two tokens and around a line. The set is the white
space of Unicode together with the four ASCII separators U+001C to U+001F. -/

namespace Calculator.Text

/-- A character that separates tokens without being one. -/
def isBlank (c : Char) : Bool :=
  let n := c.toNat
  (0x09 ≤ n && n ≤ 0x0D) || (0x1C ≤ n && n ≤ 0x20) || n == 0x85 || n == 0xA0 || n == 0x1680 ||
    (0x2000 ≤ n && n ≤ 0x200A) || n == 0x2028 || n == 0x2029 || n == 0x202F || n == 0x205F ||
    n == 0x3000

/-- The characters left once every leading and every trailing one in the class is dropped. -/
def trimChars (drop : Char → Bool) (chars : List Char) : List Char :=
  ((chars.dropWhile drop).reverse.dropWhile drop).reverse

def trim (text : String) : String :=
  String.ofList (trimChars isBlank text.toList)

def allBlank (text : String) : Bool :=
  text.toList.all isBlank

/-- A text without the characters of the class at its end. -/
def trimEnd (drop : Char → Bool) (text : String) : String :=
  String.ofList (text.toList.reverse.dropWhile drop).reverse

end Calculator.Text

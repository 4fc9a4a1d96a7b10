/-!
White space as the Unicode property has it, and trimming. A text is blank if nothing is left
of it after trimming; zero-width characters are not white space.
-/

namespace RolloutWatch.Blank

/-- The Unicode property White_Space. -/
def isSpace (c : Char) : Bool :=
  let n := c.toNat
  (0x09 ≤ n && n ≤ 0x0D) || n == 0x20 || n == 0x85 || n == 0xA0 || n == 0x1680
    || (0x2000 ≤ n && n ≤ 0x200A) || n == 0x2028 || n == 0x2029 || n == 0x202F
    || n == 0x205F || n == 0x3000

def trimStart (text : List Char) : List Char :=
  text.dropWhile isSpace

def trimEnd (text : List Char) : List Char :=
  (text.reverse.dropWhile isSpace).reverse

def trim (text : List Char) : List Char :=
  trimEnd (trimStart text)

def isBlank (text : String) : Bool :=
  text.toList.all isSpace

def trimmed (text : String) : String :=
  String.ofList (trim text.toList)

end RolloutWatch.Blank

/-!
Upper case as far as names in ASCII need it. Only the characters listed here have an upper
case that consists of ASCII letters, so a text whose upper case is an ASCII word is found
exactly; every other character is kept and keeps the text from being such a word.
-/

namespace RolloutWatch.Upper

def char (c : Char) : List Char :=
  match c.toNat with
  | 0x131 => ['I']
  | 0x17F => ['S']
  | 0xDF => ['S', 'S']
  | 0xFB00 => ['F', 'F']
  | 0xFB01 => ['F', 'I']
  | 0xFB02 => ['F', 'L']
  | 0xFB03 => ['F', 'F', 'I']
  | 0xFB04 => ['F', 'F', 'L']
  | 0xFB05 => ['S', 'T']
  | 0xFB06 => ['S', 'T']
  | n => if 97 ≤ n ∧ n ≤ 122 then [Char.ofNat (n - 32)] else [c]

def text (s : String) : String :=
  String.ofList (s.toList.flatMap char)

end RolloutWatch.Upper

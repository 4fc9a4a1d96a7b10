import RolloutWatch.Text.Hex
import RolloutWatch.Text.Utf8

/-!
Form encoding of query parameters: a space becomes a plus sign, letters, digits and four
marks stay, and every other byte is written with a percent sign. The decoder takes what any
encoder writes.
-/

namespace RolloutWatch.Form

def isPlain (n : Nat) : Bool :=
  (48 ≤ n && n ≤ 57) || (65 ≤ n && n ≤ 90) || (97 ≤ n && n ≤ 122)
    || n == 42 || n == 45 || n == 46 || n == 95

def percent (n : Nat) : List Char :=
  ['%', Hex.upperDigit (n / 16), Hex.upperDigit n]

def encodeByte (b : UInt8) : List Char :=
  let n := b.toNat
  if n = 32 then ['+']
  else if isPlain n then [Char.ofNat n]
  else percent n

def encode (s : String) : List Char :=
  (Utf8.ofString s).flatMap encodeByte

def decodeBytes : List Char → List UInt8
  | [] => []
  | '+' :: rest => 32 :: decodeBytes rest
  | '%' :: a :: b :: rest =>
      match Hex.value? a, Hex.value? b with
      | some high, some low => UInt8.ofNat (16 * high + low) :: decodeBytes rest
      | _, _ => 37 :: decodeBytes (a :: b :: rest)
  | c :: rest => Utf8.encodeChar c ++ decodeBytes rest

def decode (text : List Char) : String :=
  String.ofList (Utf8.decodeLossy (decodeBytes text))

def splitAt (mark : Char) : List Char → List (List Char)
  | [] => [[]]
  | c :: rest =>
      if c = mark then [] :: splitAt mark rest
      else
        match splitAt mark rest with
        | [] => [[c]]
        | first :: more => (c :: first) :: more

def parameters (query : List Char) : List (String × String) :=
  ((splitAt '&' query).filter (· ≠ [])).map fun item =>
    let name := item.takeWhile (· ≠ '=')
    (decode name, decode (item.drop (name.length + 1)))

end RolloutWatch.Form

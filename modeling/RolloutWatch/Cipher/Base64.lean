/-!
The standard encoding of bytes in 64 characters. Three bytes are four characters, and equals
signs fill up the last four. The reader accepts exactly what the writer produces: the
filling is required and the bits that it covers are zero.
-/

namespace RolloutWatch.Base64

def char (n : Nat) : Char :=
  if n < 26 then Char.ofNat (65 + n)
  else if n < 52 then Char.ofNat (71 + n)
  else if n < 62 then Char.ofNat (n - 4)
  else if n = 62 then '+'
  else '/'

def value? (c : Char) : Option Nat :=
  let n := c.toNat
  if 65 ≤ n ∧ n ≤ 90 then some (n - 65)
  else if 97 ≤ n ∧ n ≤ 122 then some (n - 71)
  else if 48 ≤ n ∧ n ≤ 57 then some (n + 4)
  else if n = 43 then some 62
  else if n = 47 then some 63
  else none

def encode : List UInt8 → List Char
  | a :: b :: c :: rest =>
      let n := a.toNat * 65536 + b.toNat * 256 + c.toNat
      char (n / 262144) :: char (n / 4096 % 64) :: char (n / 64 % 64) :: char (n % 64)
        :: encode rest
  | [a, b] =>
      let n := a.toNat * 256 + b.toNat
      [char (n / 1024), char (n / 16 % 64), char (n % 16 * 4), '=']
  | [a] => [char (a.toNat / 4), char (a.toNat % 4 * 16), '=', '=']
  | [] => []

def decodeLast? (a b c d : Char) : Option (List UInt8) := do
  let i ← value? a
  let j ← value? b
  if c = '=' then
    if d = '=' ∧ j % 16 = 0 then some [UInt8.ofNat (i * 4 + j / 16)] else none
  else do
    let k ← value? c
    if d = '=' then
      if k % 4 = 0 then
        some [UInt8.ofNat (i * 4 + j / 16), UInt8.ofNat (j % 16 * 16 + k / 4)]
      else none
    else do
      let l ← value? d
      some
        [UInt8.ofNat (i * 4 + j / 16), UInt8.ofNat (j % 16 * 16 + k / 4),
          UInt8.ofNat (k % 4 * 64 + l)]

def decode? : List Char → Option (List UInt8)
  | [] => some []
  | [a, b, c, d] => decodeLast? a b c d
  | a :: b :: c :: d :: rest => do
      let _ ← value? c
      let _ ← value? d
      let bytes ← decodeLast? a b c d
      let more ← decode? rest
      pure (bytes ++ more)
  | _ => none

end RolloutWatch.Base64

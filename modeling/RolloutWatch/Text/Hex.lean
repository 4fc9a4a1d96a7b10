/-!
Hexadecimal digits, written in lower case and read in either case.
-/

namespace RolloutWatch.Hex

def digit (n : Nat) : Char :=
  if n % 16 < 10 then Char.ofNat (48 + n % 16) else Char.ofNat (87 + n % 16)

def upperDigit (n : Nat) : Char :=
  if n % 16 < 10 then Char.ofNat (48 + n % 16) else Char.ofNat (55 + n % 16)

def value? (c : Char) : Option Nat :=
  if '0' ≤ c ∧ c ≤ '9' then some (c.toNat - 48)
  else if 'a' ≤ c ∧ c ≤ 'f' then some (c.toNat - 87)
  else if 'A' ≤ c ∧ c ≤ 'F' then some (c.toNat - 55)
  else none

/-- The last `width` digits of a number, the most significant one first. -/
def ofNat (width n : Nat) : List Char :=
  (List.range width).reverse.map fun place => digit (n / Nat.pow 16 place)

def toNat? (digits : List Char) : Option Nat :=
  digits.foldlM (fun n c => (value? c).map fun d => 16 * n + d) 0

def toBytes? : List Char → Option (List UInt8)
  | [] => some []
  | [_] => none
  | high :: low :: rest => do
      let h ← value? high
      let l ← value? low
      let bytes ← toBytes? rest
      pure (UInt8.ofNat (16 * h + l) :: bytes)

def short (n : Nat) : List Char :=
  match (ofNat 8 n).dropWhile (· = '0') with
  | [] => ['0']
  | digits => digits

end RolloutWatch.Hex

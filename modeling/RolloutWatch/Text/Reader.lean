import RolloutWatch.Number.Decimal

/-!
Readers of the front of a text: each gives what it read and what follows, or nothing.
-/

namespace RolloutWatch

abbrev Reader (α : Type) := List Char → Option (α × List Char)

namespace Reader

def digits (least most : Nat) : Reader (List Char) := fun text =>
  let found := (text.take most).takeWhile Digits.isDigit
  if least ≤ found.length then some (found, text.drop found.length) else none

def number (least most : Nat) : Reader Nat := fun text =>
  (digits least most text).map fun (found, rest) => (Digits.toNat found, rest)

def literal (expected : Char) : Reader Unit
  | c :: rest => if c = expected then some ((), rest) else none
  | [] => none

def word : List Char → Reader Unit
  | [], text => some ((), text)
  | expected :: more, c :: rest => if c = expected then word more rest else none
  | _ :: _, [] => none

end Reader

end RolloutWatch

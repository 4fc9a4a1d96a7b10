import RolloutWatch.Number.Decimal

/-!
Lengths of time in whole milliseconds, and their text: seconds from one second on,
milliseconds below, with as many places as are exact.
-/

namespace RolloutWatch

structure Elapsed where
  milliseconds : Nat
  deriving DecidableEq, Inhabited

namespace Elapsed

def ofSeconds (n : Nat) : Elapsed :=
  { milliseconds := 1000 * n }

def placesText (thousandths : Nat) : List Char :=
  if thousandths = 0 then []
  else '.' :: ((Digits.padded 3 thousandths).reverse.dropWhile (· = '0')).reverse

def chars (d : Elapsed) : List Char :=
  if d.milliseconds = 0 then "0ns".toList
  else if d.milliseconds < 1000 then Digits.ofNat d.milliseconds ++ ['m', 's']
  else
    Digits.ofNat (d.milliseconds / 1000) ++ placesText (d.milliseconds % 1000) ++ ['s']

def text (d : Elapsed) : String :=
  String.ofList d.chars

end Elapsed

end RolloutWatch

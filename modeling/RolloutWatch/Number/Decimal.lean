import RolloutWatch.Number.Shortest

/-!
Decimal text of numbers: natural numbers and integers, the plain positional text of a
binary number, the text that JSON documents use, and the reader of numeric strings.
-/

namespace RolloutWatch

namespace Digits

def char (d : Nat) : Char :=
  Char.ofNat (48 + d % 10)

/-- Digits from the least significant one on, put before those already written. -/
def push (fuel n : Nat) (written : List Char) : List Char :=
  match fuel with
  | 0 => written
  | fuel + 1 =>
      if n < 10 then char n :: written
      else push fuel (n / 10) (char (n % 10) :: written)

/-- Decimal digits without leading zeros; zero is one digit. -/
def ofNat (n : Nat) : List Char :=
  push (n + 1) n []

def ofInt (i : Int) : List Char :=
  if i < 0 then '-' :: ofNat i.natAbs else ofNat i.natAbs

def padded (width n : Nat) : List Char :=
  let digits := ofNat n
  List.replicate (width - digits.length) '0' ++ digits

def value? (c : Char) : Option Nat :=
  if '0' ≤ c ∧ c ≤ '9' then some (c.toNat - 48) else none

def isDigit (c : Char) : Bool :=
  (value? c).isSome

def toNat (digits : List Char) : Nat :=
  digits.foldl (fun n c => 10 * n + (value? c).getD 0) 0

end Digits

namespace Binary64

/-- A decimal without an exponent. A value that is not whole shows a point; a whole one
shows the given ending. -/
def positional (whole : List Char) (d : Decimal) : List Char :=
  let digits := Digits.ofNat d.coefficient
  if 0 ≤ d.exponent then
    digits ++ List.replicate (if d.coefficient = 0 then 0 else d.exponent.toNat) '0' ++ whole
  else
    let places := (-d.exponent).toNat
    if places < digits.length then
      digits.take (digits.length - places) ++ '.' :: digits.drop (digits.length - places)
    else
      '0' :: '.' :: (List.replicate (places - digits.length) '0' ++ digits)

/-- The text of a number where it stands by itself: never an exponent, no point for a whole
number, and words for what is not finite. -/
def plainText (x : Binary64) : List Char :=
  if x.isNaN then ['N', 'a', 'N']
  else
    let body := if x.isInfinite then ['i', 'n', 'f'] else positional [] (shortest .upward x)
    if x.isNegative then '-' :: body else body

def exponential (d : Decimal) : List Char :=
  let digits := Digits.ofNat d.coefficient
  let order := d.exponent + (digits.length : Int) - 1
  let sign := if order < 0 then ['e', '-'] else ['e', '+']
  (match digits with
    | [] => []
    | [first] => [first]
    | first :: rest => first :: '.' :: rest) ++ sign ++ Digits.ofNat order.natAbs

/-- The text of a finite number in a JSON document: positional from `10 ^ -5` up to, but not
including, `10 ^ 16`, always with a point; an exponent elsewhere. -/
def jsonText (x : Binary64) : List Char :=
  let d := shortest .toEven x
  let order := d.exponent + ((Digits.ofNat d.coefficient).length : Int) - 1
  let body :=
    if d.coefficient = 0 ∨ (-5 ≤ order ∧ order < 16) then positional ['.', '0'] d
    else exponential d
  if x.isNegative then '-' :: body else body

/-- A decimal rounded to the nearest number. Exponents far outside the range are settled
without computing the power. -/
def ofDecimal (negative : Bool) (digits : List Char) (exponent : Int) : Binary64 :=
  let digits := digits.dropWhile (· = '0')
  let coefficient := Digits.toNat digits
  let order := exponent + (digits.length : Int)
  if coefficient = 0 ∨ order < -400 then ofMagnitude negative 0
  else if 400 < order then infinity negative
  else if exponent < 0 then ofRatio negative coefficient (Nat.pow 10 (-exponent).toNat)
  else ofRatio negative (coefficient * Nat.pow 10 exponent.toNat) 1

def lower (c : Char) : Char :=
  if 'A' ≤ c ∧ c ≤ 'Z' then Char.ofNat (c.toNat + 32) else c

def exponent? : List Char → Option Int
  | '+' :: digits => unsigned? digits
  | '-' :: digits => (unsigned? digits).map fun n => -n
  | digits => unsigned? digits
where
  unsigned? (digits : List Char) : Option Int :=
    if digits ≠ [] ∧ digits.all Digits.isDigit then some (Digits.toNat digits : Int) else none

/-- A numeral without its sign: digits with an optional point, at least one digit, then an
optional exponent; or a word for infinity or for no number, in any case. -/
def unsigned? (negative : Bool) (text : List Char) : Option Binary64 :=
  let word := text.map lower
  if word = "inf".toList ∨ word = "infinity".toList then some (infinity negative)
  else if word = "nan".toList then some nan
  else
    let whole := text.takeWhile Digits.isDigit
    let rest := text.dropWhile Digits.isDigit
    let (places, rest) := match rest with
      | '.' :: more => (more.takeWhile Digits.isDigit, more.dropWhile Digits.isDigit)
      | other => ([], other)
    if whole = [] ∧ places = [] then none
    else
      let shift? : Option Int := match rest with
        | [] => some 0
        | c :: more => if lower c = 'e' then exponent? more else none
      shift?.map fun shift =>
        ofDecimal negative (whole ++ places) (shift - (places.length : Int))

def ofText? : List Char → Option Binary64
  | '+' :: text => unsigned? false text
  | '-' :: text => unsigned? true text
  | text => unsigned? false text

end Binary64

end RolloutWatch

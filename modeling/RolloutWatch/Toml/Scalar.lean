import RolloutWatch.Text.Hex
import RolloutWatch.Text.Reader
import RolloutWatch.Time.Instant
import RolloutWatch.Toml.Node

/-!
Numbers, names and moments of settings documents. An integer has 64 bits; underscores may
stand between digits; a moment has to exist in the calendar.
-/

namespace RolloutWatch.Toml

open Reader

/-- Digits with single underscores between them. The flag says that a digit came last. -/
def grouped (isDigit : Char → Bool) : Bool → List Char → Option (List Char × List Char)
  | afterDigit, '_' :: rest =>
      if afterDigit then grouped isDigit false rest else none
  | afterDigit, c :: rest =>
      if isDigit c then
        (grouped isDigit true rest).map fun (digits, after) => (c :: digits, after)
      else if afterDigit then some ([], c :: rest) else none
  | afterDigit, [] => if afterDigit then some ([], []) else none

def inRange (i : Int) : Bool :=
  -9223372036854775808 ≤ i && i ≤ 9223372036854775807

def based (base : Nat) (digits : List Char) : Nat :=
  digits.foldl (fun n c => base * n + (Hex.value? c).getD 0) 0

def isDigitBelow (base : Nat) (c : Char) : Bool :=
  match Hex.value? c with
  | some d => d < base
  | none => false

def basedInteger (base : Nat) : Reader Node := fun text => do
  let (digits, rest) ← grouped (isDigitBelow base) false text
  let n := based base digits
  if inRange n then pure (.integer n, rest) else none

def exponentDigits : Reader (List Char) := fun text =>
  let (sign, text) := match text with
    | '+' :: rest => (['+'], rest)
    | '-' :: rest => (['-'], rest)
    | rest => ([], rest)
  (grouped Digits.isDigit false text).map fun (digits, rest) => (sign ++ digits, rest)

/-- What makes a decimal numeral a real number: places, an exponent, or both. -/
def realTail : Reader (List Char) := fun text => do
  let (places, text) ← match text with
    | '.' :: rest =>
        (grouped Digits.isDigit false rest).map fun (digits, rest) => ('.' :: digits, rest)
    | rest => some ([], rest)
  match text with
  | mark :: rest =>
      if mark = 'e' ∨ mark = 'E' then do
        let (digits, rest) ← exponentDigits rest
        pure (places ++ 'e' :: digits, rest)
      else pure (places, text)
  | [] => pure (places, [])

def realNode (numeral : List Char) : Option Node :=
  (Binary64.ofText? numeral).bind fun x =>
    if x = Binary64.infinity false then none else some (.real x)

/-- A decimal numeral after its sign. No superfluous zero may stand in front. -/
def decimal (sign : List Char) : Reader Node := fun text => do
  let (whole, rest) ← grouped Digits.isDigit false text
  if whole.head? = some '0' ∧ whole ≠ ['0'] then none
  else do
    let (tail, after) ← realTail rest
    if tail = [] then
      let n := Digits.toNat whole
      let i : Int := if sign = ['-'] then -(n : Int) else n
      if inRange i then pure (.integer i, rest) else none
    else do
      let node ← realNode (sign ++ whole ++ tail)
      pure (node, after)

def calendarDate : Reader Unit := fun text => do
  let (year, text) ← number 4 4 text
  let (_, text) ← literal '-' text
  let (month, text) ← number 2 2 text
  let (_, text) ← literal '-' text
  let (day, text) ← number 2 2 text
  if 1 ≤ month ∧ month ≤ 12 ∧ 1 ≤ day ∧ day ≤ Calendar.daysInMonth year month then
    pure ((), text)
  else none

def clockTime : Reader Unit := fun text => do
  let (hour, text) ← number 2 2 text
  let (_, text) ← literal ':' text
  let (minute, text) ← number 2 2 text
  let (_, text) ← literal ':' text
  let (second, text) ← number 2 2 text
  let text ← match text with
    | '.' :: rest => (digits 1 rest.length rest).map Prod.snd
    | rest => some rest
  if hour ≤ 23 ∧ minute ≤ 59 ∧ second ≤ 60 then pure ((), text) else none

def zone : Reader Unit
  | [] => some ((), [])
  | c :: text =>
      if c = 'Z' ∨ c = 'z' then some ((), text)
      else if c = '+' ∨ c = '-' then do
        let (hour, text) ← number 2 2 text
        let (_, text) ← literal ':' text
        let (minute, text) ← number 2 2 text
        if hour ≤ 23 ∧ minute ≤ 59 then pure ((), text) else none
      else some ((), c :: text)

def beginsTime : List Char → Bool
  | a :: b :: ':' :: _ => Digits.isDigit a && Digits.isDigit b
  | _ => false

def beginsDate : List Char → Bool
  | a :: b :: c :: d :: '-' :: _ => [a, b, c, d].all Digits.isDigit
  | _ => false

def moment : Reader Node := fun text =>
  if beginsTime text then (clockTime text).map fun (_, rest) => (.moment, rest)
  else do
    let (_, rest) ← calendarDate text
    match rest with
    | c :: after =>
        if (c = 'T' ∨ c = 't' ∨ c = ' ') ∧ beginsTime after then do
          let (_, after) ← clockTime after
          let (_, after) ← zone after
          pure (.moment, after)
        else pure (.moment, rest)
    | [] => pure (.moment, [])

def special : Reader Node := fun text =>
  match word ['i', 'n', 'f'] text with
  | some (_, rest) => some (.real (.infinity false), rest)
  | none => (word ['n', 'a', 'n'] text).map fun (_, rest) => (.real .nan, rest)

def signed (sign : Char) : Reader Node := fun text =>
  match special text with
  | some found => some found
  | none => decimal [sign] text

def scalar : Reader Node := fun text =>
  if beginsTime text || beginsDate text then moment text
  else
    match text with
    | '+' :: rest => signed '+' rest
    | '-' :: rest => signed '-' rest
    | '0' :: 'x' :: rest => basedInteger 16 rest
    | '0' :: 'o' :: rest => basedInteger 8 rest
    | '0' :: 'b' :: rest => basedInteger 2 rest
    | 't' :: rest => (word ['r', 'u', 'e'] rest).map fun (_, after) => (.bool true, after)
    | 'f' :: rest =>
        (word ['a', 'l', 's', 'e'] rest).map fun (_, after) => (.bool false, after)
    | 'i' :: _ => special text
    | 'n' :: _ => special text
    | _ => decimal [] text

end RolloutWatch.Toml

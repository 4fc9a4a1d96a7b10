import RolloutWatch.Text.Blank
import RolloutWatch.Text.Reader
import RolloutWatch.Time.Instant

/-!
Written instants. There are two readers: the relaxed one for documents, which takes short
fields, spaces and years of any length, and the strict one for stored rows, which wants
every field at its full width. The two writers differ in the offset they end with only.
-/

namespace RolloutWatch.Rfc3339

open Reader

def relaxedYear : Reader Int := fun text =>
  match Blank.trimStart text with
  | '-' :: rest =>
      (number 1 rest.length rest).map fun (n, rest) => (-(n : Int), rest)
  | '+' :: rest =>
      (number 1 rest.length rest).map fun (n, rest) => ((n : Int), rest)
  | rest => (number 1 4 rest).map fun (n, rest) => ((n : Int), rest)

def relaxedField : Reader Nat := fun text =>
  number 1 2 (Blank.trimStart text)

def relaxedMark (mark : Char) : Reader Unit := fun text =>
  literal mark (Blank.trimStart text)

def dateTimeSeparator : Reader Unit
  | 'T' :: rest => some ((), rest)
  | 't' :: rest => some ((), rest)
  | ' ' :: rest => some ((), rest)
  | _ => none

/-- A point and digits, of which nine count; nothing at all is zero. -/
def fraction : Reader Nat
  | '.' :: text => do
      let (found, rest) ← digits 1 9 text
      pure (Digits.toNat found * Nat.pow 10 (9 - found.length), rest.dropWhile Digits.isDigit)
  | text => some (0, text)

/-- A numeric offset below a day, in minutes, or the letter for universal time. -/
def offset (gap : List Char → Option (List Char)) : Reader Int
  | [] => none
  | sign :: text =>
      if sign = 'Z' ∨ sign = 'z' then some (0, text)
      else if sign = '+' ∨ sign = '-' ∨ sign.toNat = 0x2212 then do
        let (hours, text) ← number 2 2 text
        let text ← gap text
        let (minutes, text) ← number 2 2 text
        if 59 < minutes ∨ 23 < hours then none
        else
          let total : Int := (hours * 60 + minutes : Nat)
          pure (if sign = '+' then total else -total, text)
      else none

/-- The offset of a document: colons and spaces before the minutes are skipped, and the
name of universal time is known. -/
def relaxedOffset : Reader Int := fun text =>
  match Blank.trimStart text with
  | u :: t :: c :: rest =>
      if [u, t, c].map Binary64.lower = ['u', 't', 'c'] then some (0, rest)
      else offset (fun s => some (s.dropWhile fun x => x = ':' || Blank.isSpace x))
        (u :: t :: c :: rest)
  | short => offset (fun s => some (s.dropWhile fun x => x = ':' || Blank.isSpace x)) short

def relaxed : Reader Instant := fun text => do
  let (year, text) ← relaxedYear text
  let (_, text) ← relaxedMark '-' text
  let (month, text) ← relaxedField text
  let (_, text) ← relaxedMark '-' text
  let (day, text) ← relaxedField text
  let (_, text) ← dateTimeSeparator text
  let (hour, text) ← relaxedField text
  let (_, text) ← relaxedMark ':' text
  let (minute, text) ← relaxedField text
  let (_, text) ← relaxedMark ':' text
  let (second, text) ← relaxedField text
  let (nano, text) ← fraction text
  let (minutesEast, text) ← relaxedOffset text
  let written ← Instant.ofCivil? { year, month, day, hour, minute, second, nano }
  let instant ← Instant.ofCivil? (written.civil.toUniversal minutesEast)
  pure (instant, text)

def relaxed? (text : List Char) : Option Instant :=
  match relaxed text with
  | some (instant, rest) => if Blank.trimStart rest = [] then some instant else none
  | none => none

def strict : Reader Instant := fun text => do
  let (year, text) ← number 4 4 text
  let (_, text) ← literal '-' text
  let (month, text) ← number 2 2 text
  let (_, text) ← literal '-' text
  let (day, text) ← number 2 2 text
  let (_, text) ← dateTimeSeparator text
  let (hour, text) ← number 2 2 text
  let (_, text) ← literal ':' text
  let (minute, text) ← number 2 2 text
  let (_, text) ← literal ':' text
  let (second, text) ← number 2 2 text
  let (nano, text) ← fraction text
  let (minutesEast, text) ← offset (fun s => (literal ':' s).map Prod.snd) text
  let written ←
    Instant.ofCivil? { year := (year : Int), month, day, hour, minute, second, nano }
  let instant ← Instant.ofCivil? (written.civil.toUniversal minutesEast)
  pure (instant, text)

def strict? (text : List Char) : Option Instant :=
  match strict text with
  | some (instant, []) => some instant
  | _ => none

/-- Four digits for the years of the common era up to 9999; a sign and at least four digits
for all others. -/
def yearText (year : Int) : List Char :=
  if 0 ≤ year ∧ year ≤ 9999 then Digits.padded 4 year.toNat
  else (if year < 0 then '-' else '+') :: Digits.padded 4 year.natAbs

/-- The fewest of zero, three, six or nine places that are exact. -/
def fractionText (nano : Nat) : List Char :=
  if nano = 0 then []
  else if nano % 1000000 = 0 then '.' :: Digits.padded 3 (nano / 1000000)
  else if nano % 1000 = 0 then '.' :: Digits.padded 6 (nano / 1000)
  else '.' :: Digits.padded 9 nano

def fieldsText (c : Civil) : List Char :=
  yearText c.year ++ '-' :: Digits.padded 2 c.month ++ '-' :: Digits.padded 2 c.day
    ++ 'T' :: Digits.padded 2 c.hour ++ ':' :: Digits.padded 2 c.minute
    ++ ':' :: Digits.padded 2 c.second ++ fractionText c.nano

def documentText (t : Instant) : List Char :=
  fieldsText t.civil ++ ['Z']

def rowText (t : Instant) : List Char :=
  fieldsText t.civil ++ ['+', '0', '0', ':', '0', '0']

end RolloutWatch.Rfc3339

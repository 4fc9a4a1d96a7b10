import RolloutWatch.Text.Hex
import RolloutWatch.Text.Reader

/-!
Texts and keys of settings documents: in double quotes with escapes or in single quotes
without, on one line or, in three quotes, on several.
-/

namespace RolloutWatch.Toml

def isPlain (c : Char) : Bool :=
  c = '\t' || (0x20 ≤ c.toNat && c.toNat ≠ 0x7F)

def isSpace (c : Char) : Bool :=
  c = ' ' || c = '\t'

def skipSpace (text : List Char) : List Char :=
  text.dropWhile isSpace

def newline? : List Char → Option (List Char)
  | '\n' :: rest => some rest
  | '\r' :: '\n' :: rest => some rest
  | _ => none

def codePoint (count : Nat) : Reader Char := fun text =>
  let digits := text.take count
  if digits.length < count then none
  else
    (Hex.toNat? digits).bind fun n =>
      if n < 0xD800 ∨ (0xDFFF < n ∧ n < 0x110000) then
        some (Char.ofNat n, text.drop count)
      else none

def escaped : Reader Char
  | 'b' :: rest => some (Char.ofNat 8, rest)
  | 't' :: rest => some ('\t', rest)
  | 'n' :: rest => some ('\n', rest)
  | 'f' :: rest => some (Char.ofNat 12, rest)
  | 'r' :: rest => some ('\r', rest)
  | '"' :: rest => some ('"', rest)
  | '\\' :: rest => some ('\\', rest)
  | 'u' :: rest => codePoint 4 rest
  | 'U' :: rest => codePoint 8 rest
  | _ => none

/-- A text in double quotes after the first of them. Fuel is the length of the text. -/
def basic : Nat → Reader (List Char)
  | 0, _ => none
  | fuel + 1, text =>
      match text with
      | [] => none
      | '"' :: rest => some ([], rest)
      | '\\' :: rest => do
          let (c, after) ← escaped rest
          let (more, after) ← basic fuel after
          pure (c :: more, after)
      | c :: rest =>
          if isPlain c then
            (basic fuel rest).map fun (more, after) => (c :: more, after)
          else none

/-- A text in single quotes after the first of them. -/
def raw : Reader (List Char)
  | [] => none
  | '\'' :: rest => some ([], rest)
  | c :: rest =>
      if isPlain c then (raw rest).map fun (more, after) => (c :: more, after) else none

def runLength (c : Char) (text : List Char) : Nat :=
  (text.takeWhile (· = c)).length

/-- The text after a backslash at the end of a line: blanks and newlines are skipped. -/
def continued : Nat → List Char → List Char
  | 0, text => text
  | fuel + 1, text =>
      let text := skipSpace text
      match newline? text with
      | some rest => continued fuel rest
      | none => text

/-- A text in three double quotes. The last three of up to five quotes end it. -/
def basicLines : Nat → Reader (List Char)
  | 0, _ => none
  | fuel + 1, text =>
      match text with
      | [] => none
      | '"' :: rest =>
          let quotes := runLength '"' text
          if 3 ≤ quotes then
            if quotes ≤ 5 then some (List.replicate (quotes - 3) '"', text.drop quotes) else none
          else (basicLines fuel rest).map fun (more, after) => ('"' :: more, after)
      | '\\' :: rest =>
          match newline? (skipSpace rest) with
          | some after => basicLines fuel (continued after.length after)
          | none => do
              let (c, after) ← escaped rest
              let (more, after) ← basicLines fuel after
              pure (c :: more, after)
      | c :: rest =>
          match newline? text with
          | some after => (basicLines fuel after).map fun (more, after) => ('\n' :: more, after)
          | none =>
              if isPlain c then
                (basicLines fuel rest).map fun (more, after) => (c :: more, after)
              else none

def rawLines : Nat → Reader (List Char)
  | 0, _ => none
  | fuel + 1, text =>
      match text with
      | [] => none
      | '\'' :: rest =>
          let quotes := runLength '\'' text
          if 3 ≤ quotes then
            if quotes ≤ 5 then some (List.replicate (quotes - 3) '\'', text.drop quotes) else none
          else (rawLines fuel rest).map fun (more, after) => ('\'' :: more, after)
      | c :: rest =>
          match newline? text with
          | some after => (rawLines fuel after).map fun (more, after) => ('\n' :: more, after)
          | none =>
              if isPlain c then
                (rawLines fuel rest).map fun (more, after) => (c :: more, after)
              else none

/-- A newline right after three opening quotes does not belong to the text. -/
def afterOpening (text : List Char) : List Char :=
  (newline? text).getD text

def quotedText : Reader String := fun text =>
  let fuel := text.length + 1
  (match text with
    | '"' :: '"' :: '"' :: rest => basicLines fuel (afterOpening rest)
    | '\'' :: '\'' :: '\'' :: rest => rawLines fuel (afterOpening rest)
    | '"' :: rest => basic fuel rest
    | '\'' :: rest => raw rest
    | _ => none).map fun (content, rest) => (String.ofList content, rest)

def isBareKeyChar (c : Char) : Bool :=
  ('a' ≤ c && c ≤ 'z') || ('A' ≤ c && c ≤ 'Z') || Digits.isDigit c || c = '_' || c = '-'

def keyStep : Reader String
  | '"' :: rest =>
      (basic (rest.length + 1) rest).map fun (content, after) =>
        (String.ofList content, after)
  | '\'' :: rest =>
      (raw rest).map fun (content, after) => (String.ofList content, after)
  | text =>
      let name := text.takeWhile isBareKeyChar
      if name = [] then none else some (String.ofList name, text.drop name.length)

def keySteps : Nat → Reader (List String)
  | 0, _ => none
  | fuel + 1, text => do
      let (step, rest) ← keyStep (skipSpace text)
      match skipSpace rest with
      | '.' :: more => do
          let (steps, after) ← keySteps fuel more
          pure (step :: steps, after)
      | after => pure ([step], after)

def depthLimit : Nat :=
  80

def key : Reader (List String) := fun text => do
  let (steps, rest) ← keySteps (text.length + 1) text
  if steps.length < depthLimit then pure (steps, rest) else none

end RolloutWatch.Toml

import RolloutWatch.Number.Decimal
import RolloutWatch.Text.Hex
import RolloutWatch.Text.Utf8

/-!
Tokens of JSON documents. The scanner is one machine over the bytes. It checks the form of
escapes and numerals; whether a text is well-formed UTF-8 is asked only where the text is
wanted, so a document may carry anything in the texts that nobody reads.
-/

namespace RolloutWatch.Json

/-- A piece of a written text: a byte, or the 16-bit code unit of an escape. -/
inductive Piece where
  | byte (b : UInt8)
  | codeUnit (n : Nat)
  deriving DecidableEq

abbrev WrittenText := List Piece

/-- A numeral in its parts. The places are the digits after the point. -/
structure Numeral where
  negative : Bool
  whole : List Char
  places : Option (List Char)
  exponent : Option (Bool × List Char)
  deriving DecidableEq

inductive Token where
  | openArray
  | closeArray
  | openObject
  | closeObject
  | comma
  | colon
  | null
  | bool (b : Bool)
  | number (n : Numeral)
  | text (t : WrittenText)
  deriving DecidableEq

namespace Numeral

def splitDigits (text : List Char) : List Char × List Char :=
  (text.takeWhile Digits.isDigit, text.dropWhile Digits.isDigit)

def exponentPart? : List Char → Option (Option (Bool × List Char))
  | [] => some none
  | mark :: rest =>
      if mark = 'e' ∨ mark = 'E' then
        let (negative, digits) := match rest with
          | '-' :: more => (true, more)
          | '+' :: more => (false, more)
          | more => (false, more)
        if digits ≠ [] ∧ digits.all Digits.isDigit then some (some (negative, digits)) else none
      else none

/-- No superfluous zero in front, and at least one digit in every part that is there. -/
def ofChars? (text : List Char) : Option Numeral :=
  let (negative, text) := match text with
    | '-' :: rest => (true, rest)
    | rest => (false, rest)
  let (whole, text) := splitDigits text
  if whole = [] ∨ (whole.head? = some '0' ∧ whole ≠ ['0']) then none
  else
    match text with
    | '.' :: rest =>
        let (places, rest) := splitDigits rest
        if places = [] then none
        else
          (exponentPart? rest).map fun exponent =>
            { negative, whole, places := some places, exponent }
    | rest =>
        (exponentPart? rest).map fun exponent => { negative, whole, places := none, exponent }

end Numeral

namespace Token

/-- What the bytes read so far have begun. Lists are in reverse. -/
inductive Mode where
  | between
  | word (taken : List Char)
  | text (taken : WrittenText)
  | escape (taken : WrittenText)
  | hex (taken : WrittenText) (missing value : Nat)

def isBlank (b : UInt8) : Bool :=
  b == 0x20 || b == 0x09 || b == 0x0A || b == 0x0D

def isWordByte (b : UInt8) : Bool :=
  (0x30 ≤ b && b ≤ 0x39) || (0x41 ≤ b && b ≤ 0x5A) || (0x61 ≤ b && b ≤ 0x7A)
    || b == 0x2B || b == 0x2D || b == 0x2E

def ofWord? (word : List Char) : Option Token :=
  if word = ['t', 'r', 'u', 'e'] then some (.bool true)
  else if word = ['f', 'a', 'l', 's', 'e'] then some (.bool false)
  else if word = ['n', 'u', 'l', 'l'] then some .null
  else (Numeral.ofChars? word).map .number

def ofMark? (b : UInt8) : Option Token :=
  if b == 0x5B then some .openArray
  else if b == 0x5D then some .closeArray
  else if b == 0x7B then some .openObject
  else if b == 0x7D then some .closeObject
  else if b == 0x2C then some .comma
  else if b == 0x3A then some .colon
  else none

def start? (b : UInt8) : Option (List Token × Mode) :=
  if isBlank b then some ([], .between)
  else if b == 0x22 then some ([], .text [])
  else if isWordByte b then some ([], .word [Char.ofNat b.toNat])
  else (ofMark? b).map fun token => ([token], .between)

def simpleEscape? (b : UInt8) : Option UInt8 :=
  if b == 0x22 || b == 0x5C || b == 0x2F then some b
  else if b == 0x62 then some 0x08
  else if b == 0x66 then some 0x0C
  else if b == 0x6E then some 0x0A
  else if b == 0x72 then some 0x0D
  else if b == 0x74 then some 0x09
  else none

def step? : Mode → UInt8 → Option (List Token × Mode)
  | .between, b => start? b
  | .word taken, b =>
      if isWordByte b then some ([], .word (Char.ofNat b.toNat :: taken))
      else do
        let token ← ofWord? taken.reverse
        let (tokens, mode) ← start? b
        pure (token :: tokens, mode)
  | .text taken, b =>
      if b == 0x22 then some ([.text taken.reverse], .between)
      else if b == 0x5C then some ([], .escape taken)
      else if b < 0x20 then none
      else some ([], .text (.byte b :: taken))
  | .escape taken, b =>
      if b == 0x75 then some ([], .hex taken 4 0)
      else (simpleEscape? b).map fun plain => ([], .text (.byte plain :: taken))
  | .hex taken missing value, b =>
      (Hex.value? (Char.ofNat b.toNat)).map fun digit =>
        if missing ≤ 1 then ([], .text (.codeUnit (16 * value + digit) :: taken))
        else ([], .hex taken (missing - 1) (16 * value + digit))

/-- The end of the document completes a word and nothing else. -/
def finish? : Mode → Option (List Token)
  | .between => some []
  | .word taken => (ofWord? taken.reverse).map fun token => [token]
  | _ => none

def scan : Mode → List UInt8 → Option (List Token)
  | mode, [] => finish? mode
  | mode, b :: rest => do
      let (tokens, next) ← step? mode b
      let more ← scan next rest
      pure (tokens ++ more)

def ofBytes? (bytes : List UInt8) : Option (List Token) :=
  scan .between bytes

end Token

def isLeading (n : Nat) : Bool :=
  0xD800 ≤ n && n ≤ 0xDBFF

def isTrailing (n : Nat) : Bool :=
  0xDC00 ≤ n && n ≤ 0xDFFF

def pairValue (leading trailing : Nat) : Nat :=
  0x10000 + (leading - 0xD800) * 1024 + (trailing - 0xDC00)

namespace WrittenText

/-- The bytes of a text; code units outside a pair must not be surrogates. -/
def bytes? : WrittenText → Option (List UInt8)
  | [] => some []
  | .byte b :: rest => (bytes? rest).map (b :: ·)
  | .codeUnit n :: .codeUnit m :: rest =>
      if isLeading n then
        if isTrailing m then
          (bytes? rest).map (Utf8.encodeChar (Char.ofNat (pairValue n m)) ++ ·)
        else none
      else if isTrailing n then none
      else (bytes? (.codeUnit m :: rest)).map (Utf8.encodeChar (Char.ofNat n) ++ ·)
  | .codeUnit n :: rest =>
      if isLeading n || isTrailing n then none
      else (bytes? rest).map (Utf8.encodeChar (Char.ofNat n) ++ ·)

def decode? (written : WrittenText) : Option String :=
  (bytes? written).bind Utf8.toString?

end WrittenText

end RolloutWatch.Json

/-!
UTF-8: the bytes of a text, and the texts of bytes. One machine reads bytes and reports a
character or a malformed piece each time; the strict reader refuses malformed pieces and
the lossy reader puts the replacement character in their place. A malformed piece is the
longest run of bytes that could still have begun a character.
-/

namespace RolloutWatch.Utf8

def continuation (n : Nat) : UInt8 :=
  UInt8.ofNat (0x80 + n % 64)

def encodeChar (c : Char) : List UInt8 :=
  let n := c.toNat
  if n < 0x80 then [UInt8.ofNat n]
  else if n < 0x800 then [UInt8.ofNat (0xC0 + n / 64), continuation n]
  else if n < 0x10000 then
    [UInt8.ofNat (0xE0 + n / 4096), continuation (n / 64), continuation n]
  else
    [UInt8.ofNat (0xF0 + n / 262144), continuation (n / 4096), continuation (n / 64),
      continuation n]

def encode (text : List Char) : List UInt8 :=
  text.flatMap encodeChar

def ofString (s : String) : List UInt8 :=
  encode s.toList

/-- A character that has begun: how many bytes are missing, the value so far, and the
bounds of the next byte. -/
structure Pending where
  missing : Nat
  value : Nat
  low : Nat
  high : Nat

inductive Lead where
  | char (c : Char)
  | start (pending : Pending)
  | malformed

/-- The bounds keep out overlong forms, surrogates and values above the last code point. -/
def lead (byte : UInt8) : Lead :=
  let n := byte.toNat
  if n < 0x80 then .char (Char.ofNat n)
  else if n < 0xC2 then .malformed
  else if n < 0xE0 then .start { missing := 1, value := n - 0xC0, low := 0x80, high := 0xBF }
  else if n < 0xF0 then
    .start
      { missing := 2
        value := n - 0xE0
        low := if n = 0xE0 then 0xA0 else 0x80
        high := if n = 0xED then 0x9F else 0xBF }
  else if n < 0xF5 then
    .start
      { missing := 3
        value := n - 0xF0
        low := if n = 0xF0 then 0x90 else 0x80
        high := if n = 0xF4 then 0x8F else 0xBF }
  else .malformed

/-- The characters of a byte sequence, with `none` for each malformed piece. -/
def pieces : Option Pending → List UInt8 → List (Option Char)
  | none, [] => []
  | some _, [] => [none]
  | none, byte :: rest =>
      match lead byte with
      | .char c => some c :: pieces none rest
      | .start pending => pieces (some pending) rest
      | .malformed => none :: pieces none rest
  | some pending, byte :: rest =>
      if pending.low ≤ byte.toNat ∧ byte.toNat ≤ pending.high then
        let value := 64 * pending.value + byte.toNat % 64
        if pending.missing ≤ 1 then some (Char.ofNat value) :: pieces none rest
        else
          pieces
            (some { missing := pending.missing - 1, value := value, low := 0x80, high := 0xBF })
            rest
      else
        match lead byte with
        | .char c => none :: some c :: pieces none rest
        | .start next => none :: pieces (some next) rest
        | .malformed => none :: none :: pieces none rest

def decode? (bytes : List UInt8) : Option (List Char) :=
  (pieces none bytes).mapM id

def decodeLossy (bytes : List UInt8) : List Char :=
  (pieces none bytes).map fun piece => piece.getD (Char.ofNat 0xFFFD)

def toString? (bytes : List UInt8) : Option String :=
  (decode? bytes).map String.ofList

/-- The order of texts by their bytes, which is the order of their code points. -/
def lessThan : List UInt8 → List UInt8 → Bool
  | _, [] => false
  | [], _ :: _ => true
  | a :: as, b :: bs => a < b || (a == b && lessThan as bs)

end RolloutWatch.Utf8

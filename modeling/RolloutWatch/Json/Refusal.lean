import RolloutWatch.Json.Value

/-!
Why a document is refused, and where. The reader is followed byte by byte up to the first
fault, in the order in which a reader from left to right meets faults. A document without
such a fault is refused because it is of another form than asked for, and then the place is
its end.
-/

namespace RolloutWatch.Json

/-- A place in a document: the line, from one, and the count of bytes of that line. -/
structure Place where
  line : Nat
  column : Nat
  deriving DecidableEq

structure Refusal where
  reason : String
  place : Place
  deriving DecidableEq

namespace Refusal

def text (r : Refusal) : String :=
  r.reason ++ " at line " ++ String.ofList (Digits.ofNat r.place.line) ++ " column "
    ++ String.ofList (Digits.ofNat r.place.column)

def Place.after (p : Place) (b : UInt8) : Place :=
  if b == 0x0A then { line := p.line + 1, column := 0 }
  else { p with column := p.column + 1 }

def placeAfter (bytes : List UInt8) : Place :=
  bytes.foldl Place.after { line := 1, column := 0 }

structure Fault where
  reason : String
  left : Nat

abbrev Followed := Except Fault (List UInt8)

def faultAt {α : Type} (reason : String) (rest : List UInt8) : Except Fault α :=
  .error { reason, left := rest.length }

/-- A fault seen in the next byte, which counts as reached. -/
def faultNext {α : Type} (reason : String) (rest : List UInt8) : Except Fault α :=
  .error { reason, left := rest.length - 1 }

def skipBlank (bytes : List UInt8) : List UInt8 :=
  bytes.dropWhile Token.isBlank

def followWord : List UInt8 → List UInt8 → Followed
  | [], rest => pure rest
  | _ :: _, [] => faultAt "EOF while parsing a value" []
  | expected :: more, b :: rest =>
      if b == expected then followWord more rest else faultAt "expected ident" rest

def isDigit (b : UInt8) : Bool :=
  0x30 ≤ b && b ≤ 0x39

def followExponent (rest : List UInt8) : Followed :=
  let rest := match rest with
    | 0x2B :: more => more
    | 0x2D :: more => more
    | other => other
  match rest with
  | [] => faultAt "EOF while parsing a value" []
  | b :: more => if isDigit b then pure (more.dropWhile isDigit) else faultAt "invalid number" more

def isExponentMark (b : UInt8) : Bool :=
  b == 0x65 || b == 0x45

def followPlaces (rest : List UInt8) : Followed :=
  match rest with
  | 0x2E :: more =>
      match more with
      | [] => faultNext "EOF while parsing a value" []
      | b :: after =>
          if isDigit b then
            match after.dropWhile isDigit with
            | mark :: further =>
                if isExponentMark mark then followExponent further else pure (mark :: further)
            | [] => pure []
          else faultNext "invalid number" more
  | mark :: more => if isExponentMark mark then followExponent more else pure rest
  | [] => pure []

def followDigits (rest : List UInt8) : Followed :=
  match rest with
  | [] => faultAt "invalid number" []
  | b :: more =>
      if b == 0x30 then
        match more with
        | next :: _ => if isDigit next then faultNext "invalid number" more else followPlaces more
        | [] => pure []
      else if isDigit b then followPlaces (more.dropWhile isDigit)
      else faultAt "invalid number" more

def followNumber (start : List UInt8) (rest : List UInt8) : Followed := do
  let after ← followDigits rest
  let written := (start.take (start.length - after.length)).map fun b => Char.ofNat b.toNat
  match (Numeral.ofChars? written).bind Numeral.number? with
  | some _ => pure after
  | none => faultAt "number out of range" after

def hexValue? (digits : List UInt8) : Option Nat :=
  Hex.toNat? (digits.map fun b => Char.ofNat b.toNat)

def followHex (rest : List UInt8) : Except Fault (Nat × List UInt8) :=
  if rest.length < 4 then faultAt "EOF while parsing a string" []
  else
    match hexValue? (rest.take 4) with
    | some n => pure (n, rest.drop 4)
    | none => faultAt "invalid escape" (rest.drop 4)

def followTrailing (rest : List UInt8) : Followed :=
  match rest with
  | [] => faultAt "EOF while parsing a string" []
  | 0x5C :: [] => faultAt "EOF while parsing a string" []
  | 0x5C :: 0x75 :: more => do
      let (n, after) ← followHex more
      if isTrailing n then pure after
      else faultAt "lone leading surrogate in hex escape" after
  | 0x5C :: _ :: more => faultAt "unexpected end of hex escape" more
  | _ :: more => faultAt "unexpected end of hex escape" more

def followEscape (rest : List UInt8) : Followed :=
  match rest with
  | [] => faultAt "EOF while parsing a string" []
  | 0x75 :: more => do
      let (n, after) ← followHex more
      if isTrailing n then faultAt "lone leading surrogate in hex escape" after
      else if isLeading n then followTrailing after
      else pure after
  | b :: more =>
      match Token.simpleEscape? b with
      | some _ => pure more
      | none => faultAt "invalid escape" more

/-- A text after its opening quote. The fuel is the count of bytes. -/
def followText : Nat → List UInt8 → Followed
  | 0, rest => faultAt "EOF while parsing a string" rest
  | fuel + 1, rest =>
      match rest with
      | [] => faultAt "EOF while parsing a string" []
      | 0x22 :: more => pure more
      | 0x5C :: more => do
          let after ← followEscape more
          followText fuel after
      | b :: more =>
          if b < 0x20 then
            faultAt "control character (\\u0000-\\u001F) found while parsing a string" more
          else followText fuel more

def followWellFormed (rest : List UInt8) : Followed := do
  let after ← followText (rest.length + 1) rest
  match Utf8.decode? (rest.take (rest.length - after.length)) with
  | some _ => pure after
  | none => faultAt "invalid unicode code point" after

inductive Container where
  | array
  | object
  deriving DecidableEq

/-- What is looked for next, inside which containers. -/
inductive Wanted where
  | value
  | first (container : Container)
  | next (container : Container)

def followKey (rest : List UInt8) : Followed :=
  match rest with
  | 0x22 :: more => do
      let after ← followWellFormed more
      match skipBlank after with
      | 0x3A :: further => pure further
      | [] => faultAt "EOF while parsing an object" []
      | other => faultNext "expected \x60:\x60" other
  | other => faultNext "key must be a string" other

def followLeaf (b : UInt8) (rest more : List UInt8) : Followed :=
  if b == 0x6E then followWord [0x75, 0x6C, 0x6C] more
  else if b == 0x74 then followWord [0x72, 0x75, 0x65] more
  else if b == 0x66 then followWord [0x61, 0x6C, 0x73, 0x65] more
  else if b == 0x22 then followWellFormed more
  else if b == 0x2D then followNumber rest more
  else if isDigit b then followNumber rest rest
  else faultNext "expected value" rest

/-- Follows the document with the stack of open containers. Each turn takes a byte, so the
count of bytes is fuel enough. -/
def follow : Nat → Wanted → List Container → List UInt8 → Followed
  | 0, _, _, rest => pure rest
  | fuel + 1, wanted, stack, bytes =>
      let rest := skipBlank bytes
      match wanted with
      | .value =>
          match rest with
          | [] => faultAt "EOF while parsing a value" []
          | b :: more =>
              if b == 0x5B || b == 0x7B then
                if levelLimit ≤ stack.length + 1 then
                  faultNext "recursion limit exceeded" rest
                else
                  let container := if b == 0x5B then Container.array else Container.object
                  follow fuel (.first container) (container :: stack) more
              else do
                let after ← followLeaf b rest more
                resume fuel stack after
      | .first .array =>
          match rest with
          | [] => faultAt "EOF while parsing a list" []
          | 0x5D :: more => resume fuel (stack.drop 1) more
          | other => follow fuel .value stack other
      | .next .array =>
          match rest with
          | [] => faultAt "EOF while parsing a list" []
          | 0x5D :: more => resume fuel (stack.drop 1) more
          | 0x2C :: more =>
              match skipBlank more with
              | 0x5D :: after => faultNext "trailing comma" (0x5D :: after)
              | other => follow fuel .value stack other
          | other => faultNext "expected \x60,\x60 or \x60]\x60" other
      | .first .object =>
          match rest with
          | [] => faultAt "EOF while parsing an object" []
          | 0x7D :: more => resume fuel (stack.drop 1) more
          | other => do
              let after ← followKey other
              follow fuel .value stack after
      | .next .object =>
          match rest with
          | [] => faultAt "EOF while parsing an object" []
          | 0x7D :: more => resume fuel (stack.drop 1) more
          | 0x2C :: more =>
              match skipBlank more with
              | [] => faultAt "EOF while parsing a value" []
              | 0x7D :: after => faultNext "trailing comma" (0x7D :: after)
              | other => do
                  let after ← followKey other
                  follow fuel .value stack after
          | other => faultNext "expected \x60,\x60 or \x60\x7d\x60" other
where
  /-- After a complete value the innermost container goes on. -/
  resume (fuel : Nat) (stack : List Container) (rest : List UInt8) : Followed :=
    match stack with
    | [] => pure rest
    | container :: _ => follow fuel (.next container) stack rest

def followDocument (bytes : List UInt8) : Followed := do
  let rest ← follow (2 * bytes.length + 2) .value [] bytes
  match skipBlank rest with
  | [] => pure []
  | other => faultNext "trailing characters" other

def ofBytes (bytes : List UInt8) : Refusal :=
  match followDocument bytes with
  | .error fault =>
      { reason := fault.reason, place := placeAfter (bytes.take (bytes.length - fault.left)) }
  | .ok _ => { reason := "unexpected form", place := placeAfter bytes }

end Refusal

end RolloutWatch.Json

import RolloutWatch.Json.Value

/-!
The two written forms of a value: the compact one of messages and stored columns, and the
indented one for people. Members are written in the order in which they stand.
-/

namespace RolloutWatch.Json

def escape (c : Char) : List Char :=
  if c = '"' then ['\\', '"']
  else if c = '\\' then ['\\', '\\']
  else if c.toNat = 0x08 then ['\\', 'b']
  else if c.toNat = 0x0C then ['\\', 'f']
  else if c = '\n' then ['\\', 'n']
  else if c = '\r' then ['\\', 'r']
  else if c = '\t' then ['\\', 't']
  else if c.toNat < 0x20 then '\\' :: 'u' :: Hex.ofNat 4 c.toNat
  else [c]

def quoted (s : String) : List Char :=
  '"' :: s.toList.flatMap escape ++ ['"']

namespace Number

/-- Numbers that are not finite have no numeral. -/
def chars : Number → List Char
  | .integer i => Digits.ofInt i
  | .real x => if x.isFinite then x.jsonText else ['n', 'u', 'l', 'l']

end Number

namespace Value

def openBrace : Char := Char.ofNat 0x7B

def closeBrace : Char := Char.ofNat 0x7D

mutual

def compact : Value → List Char
  | .null => ['n', 'u', 'l', 'l']
  | .bool true => ['t', 'r', 'u', 'e']
  | .bool false => ['f', 'a', 'l', 's', 'e']
  | .number n => n.chars
  | .text s => quoted s
  | .array [] => ['[', ']']
  | .array (first :: rest) => '[' :: (compact first ++ compactItems rest)
  | .object [] => [openBrace, closeBrace]
  | .object ((key, first) :: rest) =>
      openBrace :: (quoted key ++ ':' :: (compact first ++ compactMembers rest))

def compactItems : List Value → List Char
  | [] => [']']
  | value :: rest => ',' :: (compact value ++ compactItems rest)

def compactMembers : List (String × Value) → List Char
  | [] => [closeBrace]
  | (key, value) :: rest =>
      ',' :: (quoted key ++ ':' :: (compact value ++ compactMembers rest))

end

def line (depth : Nat) : List Char :=
  '\n' :: List.replicate (2 * depth) ' '

mutual

def indented (depth : Nat) : Value → List Char
  | .null => ['n', 'u', 'l', 'l']
  | .bool true => ['t', 'r', 'u', 'e']
  | .bool false => ['f', 'a', 'l', 's', 'e']
  | .number n => n.chars
  | .text s => quoted s
  | .array [] => ['[', ']']
  | .array (first :: rest) =>
      '[' :: (line (depth + 1) ++ indented (depth + 1) first ++ indentedItems depth rest)
  | .object [] => [openBrace, closeBrace]
  | .object ((key, first) :: rest) =>
      openBrace :: (line (depth + 1) ++ quoted key ++ ':' :: ' ' ::
        (indented (depth + 1) first ++ indentedMembers depth rest))

def indentedItems (depth : Nat) : List Value → List Char
  | [] => line depth ++ [']']
  | value :: rest =>
      ',' :: (line (depth + 1) ++ indented (depth + 1) value ++ indentedItems depth rest)

def indentedMembers (depth : Nat) : List (String × Value) → List Char
  | [] => line depth ++ [closeBrace]
  | (key, value) :: rest =>
      ',' :: (line (depth + 1) ++ quoted key ++ ':' :: ' ' ::
        (indented (depth + 1) value ++ indentedMembers depth rest))

end

def render (v : Value) : String :=
  String.ofList v.compact

def bytes (v : Value) : List UInt8 :=
  Utf8.encode v.compact

end Value

end RolloutWatch.Json

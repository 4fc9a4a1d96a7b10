import RolloutWatch.Text.Hex

/-!
Identifiers of stored entities: 128 bits, written as 32 hexadecimal digits in groups of
eight, four, four, four and twelve. The reader also takes the digits without hyphens, in
braces, or after the prefix of a resource name.
-/

namespace RolloutWatch

structure EntityId where
  bits : BitVec 128
  deriving DecidableEq

namespace EntityId

def nil : EntityId :=
  { bits := 0 }

instance : Inhabited EntityId := ⟨nil⟩

def isNil (id : EntityId) : Bool :=
  id = nil

def ofNat (n : Nat) : EntityId :=
  { bits := BitVec.ofNat 128 n }

def groups : List Nat :=
  [8, 4, 4, 4, 12]

def hyphenate : List Nat → List Char → List Char
  | [], _ => []
  | [last], digits => digits.take last
  | size :: sizes, digits => digits.take size ++ '-' :: hyphenate sizes (digits.drop size)

def chars (id : EntityId) : List Char :=
  hyphenate groups (Hex.ofNat 32 id.bits.toNat)

def text (id : EntityId) : String :=
  String.ofList id.chars

/-- Removes the hyphens, each of which has to stand exactly between two groups. -/
def unhyphenate? : List Nat → List Char → Option (List Char)
  | [], rest => if rest = [] then some [] else none
  | [last], digits => if digits.length = last then some digits else none
  | size :: sizes, digits =>
      match digits.drop size with
      | '-' :: rest => (unhyphenate? sizes rest).map (digits.take size ++ ·)
      | _ => none

def ofDigits? (digits : List Char) : Option EntityId :=
  if digits.length = 32 then (Hex.toNat? digits).map ofNat else none

def ofHyphenated? (text : List Char) : Option EntityId :=
  if text.length = 36 then (unhyphenate? groups text).bind ofDigits? else none

def ofChars? (text : List Char) : Option EntityId :=
  match text.length with
  | 32 => ofDigits? text
  | 36 => ofHyphenated? text
  | 38 =>
      if text.head? = some (Char.ofNat 0x7B) ∧ text.getLast? = some (Char.ofNat 0x7D) then
        ofHyphenated? (text.drop 1).dropLast
      else none
  | 45 =>
      if text.take 9 = "urn:uuid:".toList then ofHyphenated? (text.drop 9) else none
  | _ => none

def ofString? (s : String) : Option EntityId :=
  ofChars? s.toList

end EntityId

end RolloutWatch

import RolloutWatch.Json.Tree
import RolloutWatch.Keyed

/-!
JSON values whose meaning is left to somebody else: query results and connection
configurations. A number is an integer if it is written as one and fits 64 bits. Of members
with one key the last one counts, and a value read from a document has its keys in order.
-/

namespace RolloutWatch.Json

inductive Number where
  | integer (i : Int)
  | real (x : Binary64)
  deriving DecidableEq

inductive Value where
  | null
  | bool (b : Bool)
  | number (n : Number)
  | text (s : String)
  | array (items : List Value)
  | object (members : List (String × Value))

instance : Inhabited Value := ⟨.null⟩

/-- Levels of nesting that a document may have where its values are read, plus one. -/
def levelLimit : Nat :=
  128

namespace Numeral

/-- Digits taken into a significand as long as it fits 64 bits. Of the digits left over,
those before the point count as powers of ten and those behind it do not count. -/
structure Gathered where
  significand : Nat
  exponent : Int
  overflowed : Bool

def fits (n : Nat) : Bool :=
  n < Nat.pow 2 64

def gatherWhole : List Char → Gathered → Gathered
  | [], g => g
  | c :: rest, g =>
      let next := 10 * g.significand + (Digits.value? c).getD 0
      if g.overflowed || !fits next then
        gatherWhole rest { g with exponent := g.exponent + 1, overflowed := true }
      else gatherWhole rest { g with significand := next }

def gatherPlaces : List Char → Gathered → Gathered
  | [], g => g
  | c :: rest, g =>
      let next := 10 * g.significand + (Digits.value? c).getD 0
      if fits next then
        gatherPlaces rest { g with significand := next, exponent := g.exponent - 1 }
      else g

/-- A significand times a power of ten, by one rounded multiplication or division for each
power of ten that a number can hold. A result beyond the greatest number is refused. -/
def scale? : Nat → Binary64 → Int → Option Binary64
  | 0, x, _ => some x
  | fuel + 1, x, exponent =>
      if exponent.natAbs ≤ 308 then
        let power := Binary64.ofNat (Nat.pow 10 exponent.natAbs)
        if 0 ≤ exponent then
          let product := x.mulFinite power
          if product.isFinite then some product else none
        else some (x.divFinite power)
      else if x.magnitude = 0 then some x
      else if 0 ≤ exponent then none
      else scale? fuel (x.divFinite (Binary64.ofNat (Nat.pow 10 308))) (exponent + 308)

/-- Exponents are cut off at the range of 32 bits. -/
def clampExponent (e : Int) : Int :=
  max (-2147483648) (min 2147483647 e)

def real? (n : Numeral) (places : List Char) (written : Int) : Option Binary64 :=
  let g := gatherPlaces places (gatherWhole n.whole ⟨0, 0, false⟩)
  let exponent := clampExponent (g.exponent + written)
  if 2147483647 < written.natAbs then
    if g.significand ≠ 0 ∧ 0 < written then none
    else some (Binary64.ofMagnitude n.negative 0)
  else
    (scale? 8 (Binary64.ofNat g.significand) exponent).map fun x =>
      if n.negative then x.negate else x

def number? (n : Numeral) : Option Number :=
  match n.places, n.exponent with
  | none, none =>
      let size := Digits.toNat n.whole
      if fits size then
        if !n.negative then some (.integer size)
        else if 0 < size ∧ size ≤ Nat.pow 2 63 then some (.integer (-(size : Int)))
        else some (.real (Binary64.ofNat size).negate)
      else (real? n [] 0).map .real
  | places, exponent =>
      let written : Int := match exponent with
        | none => 0
        | some (negative, digits) =>
            if negative then -(Digits.toNat digits : Int) else (Digits.toNat digits : Int)
      (real? n (places.getD []) written).map .real

end Numeral

namespace Number

def toBinary64 : Number → Binary64
  | .integer i => Binary64.ofInt i
  | .real x => x

end Number

namespace Value

mutual

/-- The value of a tree. Every container takes one level, and the last level is not usable. -/
def ofTree? (levels : Nat) : Tree → Option Value
  | .null => some .null
  | .bool b => some (.bool b)
  | .number n => (Numeral.number? n).map .number
  | .text t => (WrittenText.decode? t).map .text
  | .array items =>
      if levels ≤ 1 then none else (ofItems? (levels - 1) items).map .array
  | .object members =>
      if levels ≤ 1 then none else (ofMembers? (levels - 1) members []).map .object

def ofItems? (levels : Nat) : List Tree → Option (List Value)
  | [] => some []
  | tree :: rest => do
      let value ← ofTree? levels tree
      let values ← ofItems? levels rest
      pure (value :: values)

/-- Members are put in one after the other, so the last one of a key stays. -/
def ofMembers? (levels : Nat) :
    List (WrittenText × Tree) → List (String × Value) → Option (List (String × Value))
  | [], before => some before
  | (written, tree) :: rest, before => do
      let key ← WrittenText.decode? written
      let value ← ofTree? levels tree
      ofMembers? levels rest (Keyed.put key value before)

end

def ofBytes? (bytes : List UInt8) : Option Value :=
  (Tree.ofBytes? bytes).bind (ofTree? levelLimit)

def member? (key : String) : Value → Option Value
  | .object members => Keyed.get? key members
  | _ => none

def asText? : Value → Option String
  | .text s => some s
  | _ => none

mutual

def same : Value → Value → Bool
  | .null, .null => true
  | .bool a, .bool b => a = b
  | .number (.integer i), .number (.integer j) => i = j
  | .number (.real x), .number (.real y) => x.eqv y
  | .text a, .text b => a = b
  | .array as, .array bs => sameItems as bs
  | .object as, .object bs => sameMembers as bs
  | _, _ => false

def sameItems : List Value → List Value → Bool
  | [], [] => true
  | a :: as, b :: bs => same a b && sameItems as bs
  | _, _ => false

def sameMembers : List (String × Value) → List (String × Value) → Bool
  | [], [] => true
  | (k, a) :: as, (l, b) :: bs => k = l && same a b && sameMembers as bs
  | _, _ => false

end

end Value

end RolloutWatch.Json

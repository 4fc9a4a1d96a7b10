/-!
Readings and thresholds are binary floating-point numbers of 64 bits. This file holds the
numbers as bit patterns, their exact order, and the one rounding rule that everything else
is built from: the nearest number to a ratio, a half going to the even neighbour.
Nothing here uses the machine's floating-point unit.
-/

namespace RolloutWatch

/-- The 64 bits are the number: sign, eleven exponent bits, fifty-two fraction bits. -/
structure Binary64 where
  bits : BitVec 64
  deriving DecidableEq

namespace Binary64

def signBit : Nat :=
  Nat.pow 2 63

/-- The bit above the fraction, which the significand of a normal number has and which is
not written. -/
def hiddenBit : Nat :=
  Nat.pow 2 52

/-- The bits without the sign. Finite magnitudes, then infinity, then the NaNs, in this order. -/
def magnitude (x : Binary64) : Nat :=
  x.bits.toNat % signBit

def isNegative (x : Binary64) : Bool :=
  x.bits.msb

/-- The magnitude of infinity: an exponent of all ones and no fraction. -/
def infiniteMagnitude : Nat :=
  2047 * hiddenBit

def isNaN (x : Binary64) : Bool :=
  infiniteMagnitude < x.magnitude

def isFinite (x : Binary64) : Bool :=
  x.magnitude < infiniteMagnitude

def isInfinite (x : Binary64) : Bool :=
  x.magnitude = infiniteMagnitude

def ofMagnitude (negative : Bool) (magnitude : Nat) : Binary64 :=
  { bits := BitVec.ofNat 64 (if negative then signBit + magnitude else magnitude) }

def zero : Binary64 :=
  ofMagnitude false 0

def nan : Binary64 :=
  ofMagnitude false (infiniteMagnitude + hiddenBit / 2)

def infinity (negative : Bool) : Binary64 :=
  ofMagnitude negative infiniteMagnitude

instance : Inhabited Binary64 := ⟨zero⟩

/-- The position on the number line, in steps from one number to the next.
Both zeros stand at the origin. -/
def rank (x : Binary64) : Int :=
  if x.isNegative then - (x.magnitude : Int) else (x.magnitude : Int)

/-- Numeric equality: a NaN equals nothing, and the two zeros are equal. -/
def eqv (x y : Binary64) : Bool :=
  !x.isNaN && !y.isNaN && x.rank = y.rank

/-- Numeric order: false as soon as one side is a NaN. -/
def below (x y : Binary64) : Bool :=
  !x.isNaN && !y.isNaN && x.rank < y.rank

def negate (x : Binary64) : Binary64 :=
  ofMagnitude (!x.isNegative) x.magnitude

structure Scaled where
  significand : Nat
  exponent : Int

def scaled (x : Binary64) : Scaled :=
  let field : Nat := x.magnitude / hiddenBit
  let fraction : Nat := x.magnitude % hiddenBit
  if field = 0 then
    { significand := fraction, exponent := -1074 }
  else
    { significand := hiddenBit + fraction, exponent := (field : Int) - 1075 }

/-- The value of a finite magnitude as a ratio of natural numbers. -/
def ratio (x : Binary64) : Nat × Nat :=
  let s := x.scaled
  if s.exponent < 0 then (s.significand, Nat.pow 2 (-s.exponent).toNat)
  else (s.significand * Nat.pow 2 s.exponent.toNat, 1)

/-- The natural number nearest to a ratio, a half going to the even one. -/
def nearestEven (numerator denominator : Nat) : Nat :=
  let quotient := numerator / denominator
  let remainder := numerator % denominator
  if 2 * remainder < denominator then quotient
  else if 2 * remainder = denominator then quotient + quotient % 2
  else quotient + 1

def rescale (numerator denominator : Nat) (exponent : Int) : Nat × Nat :=
  if exponent < 0 then (numerator * Nat.pow 2 (-exponent).toNat, denominator)
  else (numerator, denominator * Nat.pow 2 exponent.toNat)

/-- The magnitude nearest to a positive ratio. The exponent is the least one at which the
significand has at most 53 bits, and never below that of the least positive number. A
significand that rounds up to `2 ^ 53` carries into the exponent by itself. -/
def magnitudeOfRatio (numerator denominator : Nat) : Nat :=
  let guess : Int := (Nat.log2 numerator : Int) - (Nat.log2 denominator : Int) - 53
  let start : Int := max guess (-1074)
  let (n, d) := rescale numerator denominator start
  let exponent : Int := if n / d < 2 * hiddenBit then start else start + 1
  let (n, d) := rescale numerator denominator exponent
  let significand := nearestEven n d
  min infiniteMagnitude
    (if significand < hiddenBit then significand
      else (exponent + 1075).toNat * hiddenBit + (significand - hiddenBit))

def ofRatio (negative : Bool) (numerator denominator : Nat) : Binary64 :=
  if numerator = 0 then ofMagnitude negative 0
  else ofMagnitude negative (magnitudeOfRatio numerator denominator)

def ofNat (n : Nat) : Binary64 :=
  ofRatio false n 1

def ofInt (i : Int) : Binary64 :=
  ofRatio (i < 0) i.natAbs 1

def mulFinite (x y : Binary64) : Binary64 :=
  let (n, d) := x.ratio
  let (n', d') := y.ratio
  ofRatio (x.isNegative != y.isNegative) (n * n') (d * d')

def divFinite (x y : Binary64) : Binary64 :=
  let (n, d) := x.ratio
  let (n', d') := y.ratio
  ofRatio (x.isNegative != y.isNegative) (n * d') (d * n')

end Binary64

end RolloutWatch

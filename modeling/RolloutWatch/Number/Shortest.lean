import RolloutWatch.Number.Binary64

/-!
The shortest decimal that reads back as a given number. A decimal reads back exactly if it
lies in the interval of reals that round to the number, whose ends belong to it when the
significand is even. For each count of digits only the two neighbours of the number on that
decimal grid are tried, since any other grid point in the interval lies beyond one of them.
-/

namespace RolloutWatch

structure Decimal where
  coefficient : Nat
  exponent : Int
  deriving DecidableEq

inductive TieRule where
  | toEven
  | upward
  deriving DecidableEq

namespace Binary64

/-- Ends of the interval of reals that round to a magnitude, in units of
`2 ^ exponent`, and whether the ends round to it as well. -/
structure Neighbourhood where
  low : Nat
  value : Nat
  high : Nat
  exponent : Int
  closed : Bool

/-- Below a power of two the gap is half as wide, except among the least numbers. -/
def neighbourhood (s : Scaled) : Neighbourhood :=
  { low :=
      if s.significand = hiddenBit ∧ -1074 < s.exponent then 4 * s.significand - 1
      else 4 * s.significand - 2
    value := 4 * s.significand
    high := 4 * s.significand + 2
    exponent := s.exponent - 2
    closed := s.significand % 2 = 0 }

def decimalOrder (numerator denominator : Nat) : Int :=
  let binary : Int := (Nat.log2 numerator : Int) - (Nat.log2 denominator : Int) - 1
  let guess : Int := binary * 30103 / 100000
  let reaches (k : Int) : Bool :=
    if k < 0 then denominator ≤ numerator * Nat.pow 10 (-k).toNat
    else denominator * Nat.pow 10 k.toNat ≤ numerator
  if reaches (guess + 1) then guess + 1 else if reaches guess then guess else guess - 1

/-- The decimal grid points at `10 ^ grid` next to a number, the nearer one first, kept if
they read back. -/
def candidates (tie : TieRule) (near : Neighbourhood) (grid : Int) : List Nat :=
  let scale (n : Nat) : Nat :=
    (if near.exponent < 0 then n else n * Nat.pow 2 near.exponent.toNat) *
      (if grid < 0 then Nat.pow 10 (-grid).toNat else 1)
  let unit : Nat :=
    (if near.exponent < 0 then Nat.pow 2 (-near.exponent).toNat else 1) *
      (if grid < 0 then 1 else Nat.pow 10 grid.toNat)
  let value := scale near.value
  let below := value / unit
  let above := below + 1
  let fits (c : Nat) : Bool :=
    if near.closed then scale near.low ≤ c * unit && c * unit ≤ scale near.high
    else scale near.low < c * unit && c * unit < scale near.high
  let gapBelow := value - below * unit
  let gapAbove := above * unit - value
  let belowFirst : Bool :=
    gapBelow < gapAbove || (gapBelow = gapAbove && tie = .toEven && below % 2 = 0)
  (if belowFirst then [below, above] else [above, below]).filter fun c => c ≠ 0 && fits c

def Decimal.trim : Nat → Decimal → Decimal
  | 0, d => d
  | fuel + 1, d =>
      if d.coefficient ≠ 0 ∧ d.coefficient % 10 = 0 then
        Decimal.trim fuel { coefficient := d.coefficient / 10, exponent := d.exponent + 1 }
      else d

/-- The first grid with a point that reads back, from one digit to seventeen; seventeen
digits always tell two numbers apart. -/
def shortest (tie : TieRule) (x : Binary64) : Decimal :=
  let (n, d) := x.ratio
  if n = 0 then { coefficient := 0, exponent := 0 }
  else
    let order := decimalOrder n d
    let near := neighbourhood x.scaled
    let hit? (digits : Nat) : Option Decimal :=
      let grid := order - (digits : Int) + 1
      (candidates tie near grid).head?.map fun c => { coefficient := c, exponent := grid }
    match (List.range 17).findSome? fun i => hit? (i + 1) with
    | some found => Decimal.trim 20 found
    | none => { coefficient := 0, exponent := 0 }

end Binary64

end RolloutWatch

/-!
Instants in universal time, held by their calendar fields, so that their order is the order
of the fields from the year down. A leap second is the second 60 of its minute.
-/

namespace RolloutWatch

namespace Calendar

def isLeapYear (year : Int) : Bool :=
  year % 4 = 0 && (year % 100 ≠ 0 || year % 400 = 0)

def daysInMonth (year : Int) (month : Nat) : Nat :=
  match month with
  | 2 => if isLeapYear year then 29 else 28
  | 4 | 6 | 9 | 11 => 30
  | _ => 31

end Calendar

/-- Date and time fields as they are written, not yet known to name an instant. -/
structure Civil where
  year : Int
  month : Nat
  day : Nat
  hour : Nat
  minute : Nat
  second : Nat
  nano : Nat
  deriving DecidableEq

namespace Civil

/-- The fields name an instant within the representable years. -/
def Valid (c : Civil) : Prop :=
  (-262143 ≤ c.year ∧ c.year ≤ 262142) ∧ (1 ≤ c.month ∧ c.month ≤ 12)
    ∧ (1 ≤ c.day ∧ c.day ≤ Calendar.daysInMonth c.year c.month)
    ∧ c.hour < 24 ∧ c.minute < 60 ∧ c.second ≤ 60 ∧ c.nano < 1000000000

instance (c : Civil) : Decidable c.Valid := by
  unfold Valid
  infer_instance

def nextDay (c : Civil) : Civil :=
  if c.day < Calendar.daysInMonth c.year c.month then { c with day := c.day + 1 }
  else if c.month < 12 then { c with month := c.month + 1, day := 1 }
  else { c with year := c.year + 1, month := 1, day := 1 }

def previousDay (c : Civil) : Civil :=
  if 1 < c.day then { c with day := c.day - 1 }
  else if 1 < c.month then
    { c with month := c.month - 1, day := Calendar.daysInMonth c.year (c.month - 1) }
  else { c with year := c.year - 1, month := 12, day := 31 }

def toUniversal (c : Civil) (offsetMinutes : Int) : Civil :=
  let minutes : Int := (c.hour : Int) * 60 + (c.minute : Int) - offsetMinutes
  let (c, minutes) :=
    if minutes < 0 then (c.previousDay, minutes + 1440)
    else if 1440 ≤ minutes then (c.nextDay, minutes - 1440)
    else (c, minutes)
  { c with hour := minutes.toNat / 60, minute := minutes.toNat % 60 }

def key (c : Civil) : List Int :=
  [c.year, c.month, c.day, c.hour, c.minute, c.second, c.nano]

end Civil

structure Instant where
  civil : Civil
  valid : civil.Valid
  deriving DecidableEq

namespace Instant

def ofCivil? (c : Civil) : Option Instant :=
  if h : c.Valid then some { civil := c, valid := h } else none

def epoch : Instant :=
  { civil :=
      { year := 1970, month := 1, day := 1, hour := 0, minute := 0, second := 0, nano := 0 }
    valid := by decide }

instance : Inhabited Instant := ⟨epoch⟩

def before (a b : Instant) : Bool :=
  a.civil.key < b.civil.key

end Instant

end RolloutWatch

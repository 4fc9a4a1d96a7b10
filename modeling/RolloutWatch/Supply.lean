import RolloutWatch.EntityId
import RolloutWatch.Time.Instant

/-!
What a running program takes from outside without asking: fresh identifiers, the time of
day, and nonces. Each is an endless sequence with the count of what has been taken, so that
a run is a function of its supply.
-/

namespace RolloutWatch

/-- The twelve bytes that make two sealings of one text differ. -/
structure Nonce where
  bits : BitVec 96
  deriving DecidableEq

structure Supply where
  ids : Nat → EntityId
  clock : Nat → Instant
  nonces : Nat → Nonce
  idsTaken : Nat
  readingsTaken : Nat
  noncesTaken : Nat

namespace Supply

def idle : Supply :=
  { ids := fun _ => .nil
    clock := fun _ => .epoch
    nonces := fun _ => { bits := 0 }
    idsTaken := 0
    readingsTaken := 0
    noncesTaken := 0 }

def freshId (s : Supply) : EntityId × Supply :=
  (s.ids s.idsTaken, { s with idsTaken := s.idsTaken + 1 })

def now (s : Supply) : Instant × Supply :=
  (s.clock s.readingsTaken, { s with readingsTaken := s.readingsTaken + 1 })

def freshNonce (s : Supply) : Nonce × Supply :=
  (s.nonces s.noncesTaken, { s with noncesTaken := s.noncesTaken + 1 })

end Supply

end RolloutWatch

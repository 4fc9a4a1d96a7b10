import RolloutWatch.Cipher.Credential
import RolloutWatch.Driver.Registry
import RolloutWatch.Settings.Basic
import RolloutWatch.Store.Contract

/-!
What the services work on. An engine is what stays fixed while the program runs; a world is
what changes: the store, the supply, the loaded drivers, the time that has passed, and the
log of the questions put to drivers. A service call is a function from worlds to an answer
or an error and the next world.
-/

namespace RolloutWatch

structure Engine where
  cipher : CredentialCipher
  network : Network
  settings : EvaluationSettings

/-- A question begins and ends in the hands of the driver of a kind. -/
inductive QueryEvent where
  | began (kind : String) (metricId : EntityId)
  | ended (kind : String) (metricId : EntityId)
  deriving DecidableEq

namespace QueryEvent

def change (kind : String) : QueryEvent → Int
  | .began k _ => if k = kind then 1 else 0
  | .ended k _ => if k = kind then -1 else 0

def calls (kind : String) (log : List QueryEvent) : Nat :=
  log.countP fun event => event.change kind = 1

/-- The greatest count in hand that a log reaches from a given one on. -/
def peakFrom (kind : String) : Int → List QueryEvent → Int
  | inHand, [] => inHand
  | inHand, event :: rest => max inHand (peakFrom kind (inHand + event.change kind) rest)

def peak (kind : String) (log : List QueryEvent) : Nat :=
  (peakFrom kind 0 log).toNat

end QueryEvent

structure World (σ : Type) where
  store : σ
  supply : Supply
  registry : DriverRegistry
  clock : Nat
  log : List QueryEvent

abbrev Action (σ α : Type) := ExceptT Error (StateM (World σ)) α

namespace Action

variable {σ α : Type}

def ofExcept (answer : Except Error α) : Action σ α :=
  fun world => (answer, world)

def read (query : σ → Except Error α) : Action σ α :=
  fun world => (query world.store, world)

def write (change : σ → Except Error σ) : Action σ Unit :=
  fun world =>
    match change world.store with
    | .error e => (.error e, world)
    | .ok store => (.ok (), { world with store })

def writeWhere (change : σ → Except Error (Bool × σ)) : Action σ Bool :=
  fun world =>
    match change world.store with
    | .error e => (.error e, world)
    | .ok (found, store) => (.ok found, { world with store })

def draw (take : Supply → α × Supply) : Action σ α :=
  fun world =>
    let (a, supply) := take world.supply
    (.ok a, { world with supply })

def orNotFound (kind : EntityKind) (id : EntityId) : Option α → Action σ α
  | some a => pure a
  | none => throw (.notFound kind id)

def expectFound (kind : EntityKind) (id : EntityId) (found : Bool) : Action σ Unit :=
  if found then pure () else throw (.notFound kind id)

end Action

end RolloutWatch

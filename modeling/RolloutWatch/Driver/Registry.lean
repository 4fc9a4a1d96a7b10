import RolloutWatch.Driver.Basic
import RolloutWatch.Error
import RolloutWatch.Keyed
import RolloutWatch.Text.Visible

/-!
The registry of drivers. A factory is registered for a kind and runs when the kind is
resolved and not loaded; the driver that it builds stays loaded until it is evicted, also if
another factory is registered for the kind in between.
-/

namespace RolloutWatch

structure DriverFactory where
  outcome : Except DriverError Driver
  counted : Bool

/-- Both tables have one entry for a key, in the order of the keys. -/
structure DriverRegistry where
  factories : List (String × DriverFactory)
  loaded : List (String × Driver)
  runs : Nat

namespace DriverRegistry

def empty : DriverRegistry :=
  { factories := [], loaded := [], runs := 0 }

def register (r : DriverRegistry) (kind : String) (factory : DriverFactory) : DriverRegistry :=
  { r with factories := Keyed.put kind factory r.factories }

def registerDriver (r : DriverRegistry) (driver : Driver) : DriverRegistry :=
  r.register driver.kind { outcome := .ok driver, counted := false }

def builtin (timeout : Elapsed) : DriverRegistry :=
  empty.registerDriver (.prometheus timeout)

def kinds (r : DriverRegistry) : List String :=
  r.factories.map Prod.fst

def isRegistered (r : DriverRegistry) (kind : String) : Bool :=
  (Keyed.get? kind r.factories).isSome

def load (r : DriverRegistry) (kind : String) (factory : DriverFactory) :
    Except Error Driver × DriverRegistry :=
  let r := if factory.counted then { r with runs := r.runs + 1 } else r
  match factory.outcome with
  | .error e => (.error (.config (.driverNotLoaded kind e)), r)
  | .ok driver => (.ok driver, { r with loaded := Keyed.put kind driver r.loaded })

def resolve (r : DriverRegistry) (kind : String) : Except Error Driver × DriverRegistry :=
  match Keyed.get? kind r.loaded with
  | some driver => (.ok driver, r)
  | none =>
      match Keyed.get? kind r.factories with
      | none => (.error (.driverNotFound kind), r)
      | some factory => r.load kind factory

def reload (r : DriverRegistry) (kind : String) : Bool × DriverRegistry :=
  ((Keyed.get? kind r.loaded).isSome, { r with loaded := r.loaded.filter fun e => e.1 ≠ kind })

def reloadAll (r : DriverRegistry) : DriverRegistry :=
  { r with loaded := [] }

/-- Puts another driver in the place of the one that a kind has, registered and loaded. -/
def swap (r : DriverRegistry) (kind : String) (driver : Driver) : DriverRegistry :=
  { r with
    factories := r.factories.map fun (k, f) =>
      if k = kind then (k, { f with outcome := .ok driver }) else (k, f)
    loaded := r.loaded.map fun (k, d) => if k = kind then (k, driver) else (k, d) }

def text (r : DriverRegistry) : String :=
  "DriverRegistry \x7b kinds: [" ++ ", ".intercalate (r.kinds.map Visible.quoted)
    ++ "], .. \x7d"

end DriverRegistry

end RolloutWatch

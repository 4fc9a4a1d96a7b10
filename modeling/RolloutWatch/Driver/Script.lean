import RolloutWatch.Driver.Error
import RolloutWatch.Keyed
import RolloutWatch.Metric.QuerySpec
import RolloutWatch.Time.Elapsed

/-!
Drivers that answer from a script instead of a backend: for each metric a value or an error,
and the time that an answer takes.
-/

namespace RolloutWatch

structure Script where
  kind : String
  values : List (String × Json.Value)
  errors : List (String × DriverError)
  delays : List (String × Elapsed)
  delay : Option Elapsed

namespace Script

def silent (kind : String) : Script :=
  { kind, values := [], errors := [], delays := [], delay := none }

/-- An error in the script goes before a value. -/
def answer (s : Script) (metric : String) : Except DriverError Json.Value :=
  match Keyed.get? metric s.errors with
  | some e => .error e
  | none =>
      match Keyed.get? metric s.values with
      | some value => .ok value
      | none => .error (.of .backend ("no mock response for " ++ metric))

def delayOf (s : Script) (metric : String) : Option Elapsed :=
  match Keyed.get? metric s.delays with
  | some d => some d
  | none => s.delay

end Script

end RolloutWatch

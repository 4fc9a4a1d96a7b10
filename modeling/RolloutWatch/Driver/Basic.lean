import RolloutWatch.Driver.Script
import RolloutWatch.Prometheus.InstantQuery

/-!
Drivers, which put a question to a backend. Asking says whether the question got as far as
the backend, how long the answer takes if there is no limit, and what the answer is.
-/

namespace RolloutWatch

inductive Driver where
  | prometheus (timeout : Elapsed)
  | scripted (script : Script)

/-- What comes of asking a driver. Without a delay the answer is there at once. -/
structure Asking where
  reached : Bool
  delay : Option Elapsed
  answer : Except DriverError Json.Value

namespace Driver

def kind : Driver → String
  | .prometheus _ => "prometheus"
  | .scripted script => script.kind

def askScript (script : Script) (spec : List UInt8) : Asking :=
  match QuerySpec.ofBytes? spec with
  | none => { reached := false, delay := none, answer := .error (.refused .spec spec) }
  | some question =>
      { reached := true
        delay := script.delayOf question.metric
        answer := script.answer question.metric }

def askPrometheus (network : Network) (timeout : Elapsed) (connection spec : List UInt8) :
    Asking :=
  let asked := Prometheus.query network connection spec
  { reached := asked.request.isSome
    delay := match asked.reply with
      | some .silent => some timeout
      | _ => none
    answer := asked.answer }

def ask (network : Network) (d : Driver) (connection spec : List UInt8) : Asking :=
  match d with
  | .prometheus timeout => askPrometheus network timeout connection spec
  | .scripted script => askScript script spec

end Driver

end RolloutWatch

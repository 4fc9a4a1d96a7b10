import RolloutWatch.Engine.Evaluation

/-!
Periodic evaluation of every group. A pass visits the groups one after the other, and a group
that fails does not stop it. A pass that comes due during another one follows right after it.
-/

namespace RolloutWatch

/-- What a pass counts: groups that were evaluated, and groups with any failure. -/
structure PassSummary where
  evaluated : Nat
  failed : Nat
  deriving DecidableEq

namespace Scheduler

variable {σ : Type} [Store σ]

def remaining (cancelAt : Option Nat) (clock : Nat) : Option Nat :=
  cancelAt.map fun time => time - clock

def isCancelled (cancelAt : Option Nat) (clock : Nat) : Bool :=
  match cancelAt with
  | some time => time ≤ clock
  | none => false

def count (summary : PassSummary) : Except Error GroupEvaluation → PassSummary
  | .ok report =>
      if report.isComplete then { summary with evaluated := summary.evaluated + 1 }
      else { evaluated := summary.evaluated + 1, failed := summary.failed + 1 }
  | .error _ => { summary with failed := summary.failed + 1 }

def visit (engine : Engine) (cancelAt : Option Nat) :
    List MetricsGroup → PassSummary → StateM (World σ) PassSummary
  | [], summary => pure summary
  | group :: rest, summary => do
      let world ← get
      if isCancelled cancelAt world.clock then pure summary
      else
        let answer ←
          (Evaluation.evaluateWith engine group.id
            { cancelAfter := remaining cancelAt world.clock
              deadline := engine.settings.groupDeadline }).run
        visit engine cancelAt rest (count summary answer)

def pass (engine : Engine) (cancelAt : Option Nat) : Action σ PassSummary := do
  let groups ← Groups.findAll
  let summary ← ExceptT.lift (visit engine cancelAt groups { evaluated := 0, failed := 0 })
  pure summary

def waitUntil (time : Nat) : StateM (World σ) Unit :=
  modify fun world => { world with clock := max world.clock time }

/-- Passes at the multiples of the interval from a start, up to a cancellation. Passes begin
an interval apart, so their count up to the cancellation is fuel enough. -/
def passes (engine : Engine) (start cancelAt : Nat) :
    Nat → Nat → StateM (World σ) Unit
  | 0, _ => waitUntil cancelAt
  | fuel + 1, number => do
      waitUntil (min cancelAt (start + number * engine.settings.interval.milliseconds))
      let world ← get
      if isCancelled (some cancelAt) world.clock then pure ()
      else
        let _ ← (pass engine (some cancelAt)).run
        passes engine start cancelAt fuel (number + 1)

def run (engine : Engine) (time : Nat) : StateM (World σ) Unit := do
  let world ← get
  passes engine world.clock (world.clock + time)
    (time / engine.settings.interval.milliseconds + 2) 0

end Scheduler

end RolloutWatch

import RolloutWatch.Driver.Reading
import RolloutWatch.Engine.Groups
import RolloutWatch.Engine.QueryPhase
import RolloutWatch.Engine.Tracker

/-!
Evaluation of a group: a query phase, and then a tracking phase that keeps the reading of
every result. Executions are written in the tracking phase only, so an evaluation that fails
before it leaves them as they are.
-/

namespace RolloutWatch

/-- What an evaluation reports. Both tables are keyed by the names of the metrics. -/
structure GroupEvaluation where
  groupId : EntityId
  results : List (String × Json.Value)
  failures : List (String × Error)
  executions : List MetricExecution

namespace GroupEvaluation

def empty (groupId : EntityId) : GroupEvaluation :=
  { groupId, results := [], failures := [], executions := [] }

def isComplete (e : GroupEvaluation) : Bool :=
  e.failures.isEmpty

end GroupEvaluation

namespace Evaluation

variable {σ : Type} [Store σ]

/-- Takes one outcome into the report. A result without a reading is reported and not kept. -/
def trackOutcome (policy : TransitionPolicy) (report : GroupEvaluation) (outcome : Outcome) :
    Action σ GroupEvaluation := do
  let key := outcome.metric.resultKey
  match outcome.answer with
  | .error e => pure { report with failures := Keyed.put key e report.failures }
  | .ok result =>
      let results := Keyed.put key result report.results
      match Reading.ofResult? result with
      | none => pure { report with results }
      | some value =>
          let execution ← Tracker.record policy outcome.metric value
          pure { report with results, executions := report.executions ++ [execution] }

/-- The tracking phase: outcomes in the order of the group, up to the first that cannot be
kept. -/
def track (policy : TransitionPolicy) :
    List Outcome → GroupEvaluation → Action σ GroupEvaluation
  | [], report => pure report
  | outcome :: rest, report => do
      let report ← trackOutcome policy report outcome
      track policy rest report

/-- The query phase over the present store. Its time, its log and the drivers that it loads
stay in the world, whatever it answers. -/
def queryAll (engine : Engine) (limits : QueryPhase.Limits) (metrics : List Metric) :
    Action σ (List Outcome) := fun world =>
  let report :=
    QueryPhase.run engine (fun id => Store.findDataSource id world.store) limits world.registry
      metrics
  (report.answer,
    { world with
      registry := report.registry
      clock := world.clock + report.elapsed
      log := world.log ++ report.log })

def evaluateWith (engine : Engine) (groupId : EntityId) (limits : QueryPhase.Limits) :
    Action σ GroupEvaluation := do
  let group ← Groups.find groupId
  let outcomes ← queryAll engine limits group.metrics
  track engine.settings.transitionPolicy outcomes (.empty group.id)

def evaluate (engine : Engine) (groupId : EntityId) : Action σ GroupEvaluation :=
  evaluateWith engine groupId
    { cancelAfter := none, deadline := engine.settings.groupDeadline }

end Evaluation

end RolloutWatch

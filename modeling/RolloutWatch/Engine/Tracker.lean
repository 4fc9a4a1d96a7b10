import RolloutWatch.Engine.World

/-!
Tracking of executions. Every reading is kept as the last value of the metric's execution,
and the status moves by one rule from the old status, the condition and the policy.
-/

namespace RolloutWatch.Tracker

/-- The status after a reading. A met condition is always reached; one that is not met
leaves a reached metric as it is unless the policy follows the condition. -/
def transition (status : ExecutionStatus) (met : Bool) (policy : TransitionPolicy) :
    ExecutionStatus :=
  match status, met, policy with
  | _, true, _ => .reached
  | .reached, false, .latching => .reached
  | .reached, false, .tracking => .active
  | .active, false, _ => .active

def afterReading (policy : TransitionPolicy) (m : Metric) (value : Binary64)
    (e : MetricExecution) : MetricExecution :=
  { e with lastValue := value, status := transition e.status (m.isMet value) policy }

variable {σ : Type} [Store σ]

def findAll : Action σ (List MetricExecution) :=
  Action.read Store.listMetricExecutions

def findByMetric (metricId : EntityId) : Action σ MetricExecution := do
  let found ← Action.read (Store.findMetricExecution metricId)
  Action.orNotFound .metricExecution metricId found

/-- Stores the value and the status of an execution as given, and answers it as given. -/
def update (e : MetricExecution) : Action σ MetricExecution := do
  let found ← Action.writeWhere (Store.updateMetricExecution e)
  Action.expectFound .metricExecution e.id found
  pure e

def record (policy : TransitionPolicy) (m : Metric) (value : Binary64) :
    Action σ MetricExecution := do
  let e ← findByMetric m.id
  update (afterReading policy m value e)

end RolloutWatch.Tracker

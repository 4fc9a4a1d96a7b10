import RolloutWatch.Engine.Evaluation
import RolloutWatch.Engine.Sources

/-!
Calls of the services and runs of them. A turn is one call together with everything that
meets it besides the store: the engine, the supply, the loaded drivers, the time, and the
log. So a run leaves nothing but the store from one turn to the next, and what else happens
between two turns is as it likes.
-/

namespace RolloutWatch

/-- A call of a service with its arguments, or the loss of the connection to the store. -/
inductive ServiceCall where
  | createSource (input : NewDataSource)
  | listSources (workspaceId : EntityId) (health : Option Health)
  | findSource (id : EntityId)
  | decryptSource (id : EntityId)
  | deleteSource (id : EntityId)
  | setHealth (id : EntityId) (health : Health)
  | parseGroup (document : List UInt8)
  | createGroup (g : MetricsGroup)
  | listGroups
  | findGroup (id : EntityId)
  | updateGroup (id : EntityId) (u : MetricsGroupUpdate)
  | deleteGroup (id : EntityId)
  | addMetric (groupId : EntityId) (m : Metric)
  | updateMetric (m : Metric)
  | removeMetric (id : EntityId)
  | listExecutions
  | findExecution (metricId : EntityId)
  | updateExecution (e : MetricExecution)
  | record (m : Metric) (value : Binary64)
  | evaluate (groupId : EntityId)
  | evaluateWith (groupId : EntityId) (limits : QueryPhase.Limits)
  | closeStore

namespace ServiceCall

def Answer : ServiceCall → Type
  | .createSource _ => DataSource
  | .listSources _ _ => List DataSource
  | .findSource _ => DataSource
  | .decryptSource _ => DataSource × Json.Value
  | .deleteSource _ => Unit
  | .setHealth _ _ => Unit
  | .parseGroup _ => MetricsGroup
  | .createGroup _ => MetricsGroup
  | .listGroups => List MetricsGroup
  | .findGroup _ => MetricsGroup
  | .updateGroup _ _ => MetricsGroup
  | .deleteGroup _ => Unit
  | .addMetric _ _ => Metric
  | .updateMetric _ => Metric
  | .removeMetric _ => Unit
  | .listExecutions => List MetricExecution
  | .findExecution _ => MetricExecution
  | .updateExecution _ => MetricExecution
  | .record _ _ => MetricExecution
  | .evaluate _ => GroupEvaluation
  | .evaluateWith _ _ => GroupEvaluation
  | .closeStore => Unit

def writesSources : ServiceCall → Bool
  | .createSource _ => true
  | .deleteSource _ => true
  | .setHealth _ _ => true
  | _ => false

def setsExecution : ServiceCall → Bool
  | .updateExecution _ => true
  | _ => false

def keepsReadings : ServiceCall → Bool
  | .record _ _ => true
  | .evaluate _ => true
  | .evaluateWith _ _ => true
  | _ => false

variable {σ : Type} [Store σ]

def perform (engine : Engine) : (call : ServiceCall) → Action σ call.Answer
  | .createSource input => Sources.create engine input
  | .listSources workspaceId health => Sources.list workspaceId health
  | .findSource id => Sources.find id
  | .decryptSource id => Sources.findDecrypted engine id
  | .deleteSource id => Sources.delete id
  | .setHealth id health => Sources.setHealth id health
  | .parseGroup document => Groups.parse document
  | .createGroup g => Groups.create g
  | .listGroups => Groups.findAll
  | .findGroup id => Groups.find id
  | .updateGroup id u => Groups.update id u
  | .deleteGroup id => Groups.delete id
  | .addMetric groupId m => Groups.addMetric groupId m
  | .updateMetric m => Groups.updateMetric m
  | .removeMetric id => Groups.removeMetric id
  | .listExecutions => Tracker.findAll
  | .findExecution metricId => Tracker.findByMetric metricId
  | .updateExecution e => Tracker.update e
  | .record m value => Tracker.record engine.settings.transitionPolicy m value
  | .evaluate groupId => Evaluation.evaluate engine groupId
  | .evaluateWith groupId limits => Evaluation.evaluateWith engine groupId limits
  | .closeStore => Action.write fun store => .ok (Store.close store)

end ServiceCall

namespace Supply

def nextIds (supply : Supply) (count : Nat) : List EntityId :=
  (List.range' supply.idsTaken count).map supply.ids

def idsUpTo (supply later : Supply) : List EntityId :=
  supply.nextIds (later.idsTaken - supply.idsTaken)

end Supply

structure Turn where
  call : ServiceCall
  engine : Engine
  supply : Supply
  registry : DriverRegistry
  clock : Nat
  log : List QueryEvent

namespace Turn

variable {σ : Type} [Store σ]

def world (turn : Turn) (store : σ) : World σ :=
  { store
    supply := turn.supply
    registry := turn.registry
    clock := turn.clock
    log := turn.log }

def answer (turn : Turn) (store : σ) : Except Error turn.call.Answer :=
  (turn.call.perform turn.engine (turn.world store)).1

def leaves (turn : Turn) (store : σ) : World σ :=
  (turn.call.perform turn.engine (turn.world store)).2

/-- The store that the turn leaves, whether its call succeeds or fails. -/
def next (turn : Turn) (store : σ) : σ :=
  (turn.leaves store).store

def draws (turn : Turn) (store : σ) : List EntityId :=
  turn.supply.idsUpTo (turn.leaves store).supply

def run : List Turn → σ → σ
  | [], store => store
  | turn :: rest, store => run rest (turn.next store)

theorem run_append (turns later : List Turn) (store : σ) :
    run (turns ++ later) store = run later (run turns store) := by
  induction turns generalizing store with
  | nil => rfl
  | cons turn rest ih => exact ih (turn.next store)

theorem invariant_run {invariant : σ → Prop}
    (keeps : ∀ (turn : Turn) (store : σ), invariant store → invariant (turn.next store))
    (turns : List Turn) {store : σ} (start : invariant store) :
    invariant (run turns store) := by
  induction turns generalizing store with
  | nil => exact start
  | cons turn rest ih => exact ih (keeps turn store start)

end Turn

/-! ### A canary -/

namespace Canary

def engine : Engine :=
  { cipher := { key := [] }, network := .unreachable, settings := .default }

def turn (call : ServiceCall) (first : Nat) : Turn :=
  { call
    engine
    supply := { Supply.idle with ids := fun taken => .ofNat (first + taken) }
    registry := .empty
    clock := 0
    log := [] }

/-- A metric that is met by positive readings. Its document claims that it has been met. -/
def metric (id : Nat) : Metric :=
  { id := .ofNat id
    metricsGroupId := .nil
    dataSourceId := .ofNat 1
    nickname := "errors"
    query := "errors"
    metric := ""
    filters := []
    groupBy := []
    condition := some .greaterThan
    threshold := .zero
    circleId := .nil
    execution :=
      { id := .ofNat 5
        metricId := .ofNat 5
        lastValue := .ofMagnitude false 1
        status := .reached
        createdAt := .epoch }
    createdAt := .epoch }

def group : MetricsGroup :=
  { id := .ofNat 2
    name := "canary"
    metrics := [metric 3]
    workspaceId := .nil
    circleId := .ofNat 4
    createdAt := .epoch }

def turns : List Turn :=
  [turn (.createGroup group) 100, turn (.addMetric group.id (metric 3)) 200]

def addsLater : Turn :=
  turn (.addMetric group.id (metric 7)) 300

def meetsLater : Turn :=
  turn (.record (metric 3) (.ofMagnitude false 1)) 400

end Canary

end RolloutWatch

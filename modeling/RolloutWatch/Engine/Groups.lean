import RolloutWatch.Engine.World

/-!
Management of metrics groups and their metrics. A group or metric is validated completely
before anything is stored.
-/

namespace RolloutWatch.Groups

variable {σ : Type} [Store σ]

def renew : List Metric → Supply → List Metric × Supply
  | [], supply => ([], supply)
  | m :: rest, supply =>
      let (id, supply) := supply.freshId
      let (rest, supply) := renew rest supply
      ({ m with id } :: rest, supply)

def prepare (g : MetricsGroup) (supply : Supply) : MetricsGroup × Supply :=
  let (metrics, supply) := renew g.metrics supply
  MetricsGroup.adoptMetrics { g with metrics } supply

def parse (document : List UInt8) : Action σ MetricsGroup := fun world =>
  match MetricsGroup.ofDocument? document world.supply with
  | some (g, supply) => (.ok g, { world with supply })
  | none => (.error (.serialization (Json.Refusal.ofBytes document)), world)

def create (g : MetricsGroup) : Action σ MetricsGroup := do
  Action.ofExcept g.violations.toResult
  let g ← Action.draw (prepare g)
  Action.write (Store.insertMetricsGroup g)
  pure g

def findAll : Action σ (List MetricsGroup) :=
  Action.read Store.listMetricsGroups

def find (id : EntityId) : Action σ MetricsGroup := do
  let found ← Action.read (Store.findMetricsGroup id)
  Action.orNotFound .metricsGroup id found

def update (id : EntityId) (u : MetricsGroupUpdate) : Action σ MetricsGroup := do
  Action.ofExcept u.violations.toResult
  let found ← Action.writeWhere (Store.updateMetricsGroup id u)
  Action.expectFound .metricsGroup id found
  find id

def delete (id : EntityId) : Action σ Unit := do
  let found ← Action.writeWhere (Store.deleteMetricsGroup id)
  Action.expectFound .metricsGroup id found

def addMetric (groupId : EntityId) (m : Metric) : Action σ Metric := do
  Action.ofExcept m.violations.toResult
  let g ← find groupId
  let m ← Action.draw (MetricsGroup.adoptMetric g.id g.circleId m)
  Action.write (Store.insertMetric m)
  pure m

def updateMetric (m : Metric) : Action σ Metric := do
  Action.ofExcept m.violations.toResult
  let found ← Action.writeWhere (Store.updateMetric m)
  Action.expectFound .metric m.id found
  let stored ← Action.read (Store.findMetric m.id)
  Action.orNotFound .metric m.id stored

def removeMetric (id : EntityId) : Action σ Unit := do
  let found ← Action.writeWhere (Store.deleteMetric id)
  Action.expectFound .metric id found

end RolloutWatch.Groups

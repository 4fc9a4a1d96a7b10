import RolloutWatch.Metric.Basic

/-!
Groups of metrics that are evaluated together for one circle. A group that is stored adopts
its metrics: each gets the group's identifier, its circle if it has none, and an execution
of its own that starts anew.
-/

namespace RolloutWatch

structure MetricsGroup where
  id : EntityId
  name : String
  metrics : List Metric
  workspaceId : EntityId
  circleId : EntityId
  createdAt : Instant
  deriving DecidableEq

namespace MetricsGroup

def named (name : String) (workspaceId circleId : EntityId) (supply : Supply) :
    MetricsGroup × Supply :=
  let (id, supply) := supply.freshId
  let (createdAt, supply) := supply.now
  ({ id, name, metrics := [], workspaceId, circleId, createdAt }, supply)

def metricViolations : Nat → List Metric → Violations → Violations
  | _, [], vs => vs
  | index, m :: rest, vs =>
      metricViolations (index + 1) rest
        (vs.nest (Violations.itemPath "metrics" index) m.violations)

def violations (g : MetricsGroup) : Violations :=
  metricViolations 0 g.metrics
    (Violations.none
      |>.check (Blank.isBlank g.name) "name" "Name is required"
      |>.check g.metrics.isEmpty "metrics" "Metrics is required"
      |>.check g.circleId.isNil "circleId" "CircleID is required")

def adoptMetric (groupId circleId : EntityId) (m : Metric) (supply : Supply) :
    Metric × Supply :=
  let (execution, supply) := MetricExecution.fresh m.id supply
  ({ m with
      metricsGroupId := groupId
      circleId := if m.circleId.isNil then circleId else m.circleId
      execution }, supply)

def adoptAll (groupId circleId : EntityId) : List Metric → Supply → List Metric × Supply
  | [], supply => ([], supply)
  | m :: rest, supply =>
      let (m, supply) := adoptMetric groupId circleId m supply
      let (rest, supply) := adoptAll groupId circleId rest supply
      (m :: rest, supply)

def adoptMetrics (g : MetricsGroup) (supply : Supply) : MetricsGroup × Supply :=
  let (metrics, supply) := adoptAll g.id g.circleId g.metrics supply
  ({ g with metrics }, supply)

def toJson (g : MetricsGroup) : Json.Value :=
  .object
    [("id", g.id.toJson), ("name", .text g.name),
      ("metrics", .array (g.metrics.map Metric.toJson)),
      ("workspaceId", g.workspaceId.toJson), ("circleId", g.circleId.toJson),
      ("createdAt", g.createdAt.toJson)]

def fieldNames : List String :=
  ["id", "name", "metrics", "workspaceId", "circleId", "createdAt"]

def decoder : Json.Decoder MetricsGroup :=
  Json.Decoder.entity fieldNames fun fields => do
    let id ← fields.orElse "id" EntityId.decoder Json.Decoder.freshId
    let name ← fields.orDefault "name" Json.Decoder.text ""
    let metrics ← fields.orDefault "metrics" (Json.Decoder.list Metric.decoder) []
    let workspaceId ← fields.orDefault "workspaceId" EntityId.decoder .nil
    let circleId ← fields.orDefault "circleId" EntityId.decoder .nil
    let createdAt ← fields.orElse "createdAt" Instant.decoder Json.Decoder.now
    pure { id, name, metrics, workspaceId, circleId, createdAt }

def ofDocument? (document : List UInt8) (supply : Supply) : Option (MetricsGroup × Supply) :=
  Json.Decoder.ofBytes? decoder document supply

end MetricsGroup

structure MetricsGroupUpdate where
  name : String
  circleId : EntityId
  deriving DecidableEq

namespace MetricsGroupUpdate

def violations (u : MetricsGroupUpdate) : Violations :=
  Violations.none
    |>.check (Blank.isBlank u.name) "name" "Name is required"
    |>.check u.circleId.isNil "circleId" "CircleID is required"

def toJson (u : MetricsGroupUpdate) : Json.Value :=
  .object [("name", .text u.name), ("circleId", u.circleId.toJson)]

def decoder : Json.Decoder MetricsGroupUpdate :=
  Json.Decoder.entity ["name", "circleId"] fun fields => do
    let name ← fields.orDefault "name" Json.Decoder.text ""
    let circleId ← fields.orDefault "circleId" EntityId.decoder .nil
    pure { name, circleId }

end MetricsGroupUpdate

end RolloutWatch

import RolloutWatch.Metric.Execution
import RolloutWatch.Metric.QuerySpec
import RolloutWatch.Text.Blank
import RolloutWatch.Validation

/-!
A watched metric: what is asked of which data source, and the condition that the answer has
to meet. A document may leave out anything; what it leaves out is reported by validation.
-/

namespace RolloutWatch

structure Metric where
  id : EntityId
  metricsGroupId : EntityId
  dataSourceId : EntityId
  nickname : String
  query : String
  metric : String
  filters : List MetricFilter
  groupBy : List String
  condition : Option Condition
  threshold : Binary64
  circleId : EntityId
  execution : MetricExecution
  createdAt : Instant
  deriving DecidableEq

namespace Metric

/-- What the person who adds a metric decides about it. -/
structure Definition where
  dataSourceId : EntityId
  nickname : String
  query : String
  metric : String
  filters : List MetricFilter
  groupBy : List String
  condition : Option Condition
  threshold : Binary64
  deriving DecidableEq

/-- A new metric with an execution of its own, belonging to no group yet. -/
def ofDefinition (d : Definition) (supply : Supply) : Metric × Supply :=
  let (id, supply) := supply.freshId
  let (execution, supply) := MetricExecution.fresh id supply
  let (createdAt, supply) := supply.now
  ({ id
     metricsGroupId := .nil
     dataSourceId := d.dataSourceId
     nickname := d.nickname
     query := d.query
     metric := d.metric
     filters := d.filters
     groupBy := d.groupBy
     condition := d.condition
     threshold := d.threshold
     circleId := .nil
     execution
     createdAt }, supply)

/-- The name under which results of this metric are reported. -/
def resultKey (m : Metric) : String :=
  if m.metric = "" then m.nickname else m.metric

def querySpec (m : Metric) : QuerySpec :=
  { query := m.query, metric := m.metric, filters := m.filters, groupBy := m.groupBy }

/-- A metric without a condition is never met. -/
def isMet (m : Metric) (value : Binary64) : Bool :=
  match m.condition with
  | some condition => condition.isMet value m.threshold
  | none => false

def violations (m : Metric) : Violations :=
  Violations.none
    |>.check (Blank.isBlank m.nickname) "nickname" "Nickname is required"
    |>.check m.dataSourceId.isNil "dataSourceId" "DataSourceID is required"
    |>.check (Blank.isBlank m.metric && Blank.isBlank m.query) "metric"
      "Metric or query is required"
    |>.check m.condition.isNone "condition" "Condition is required"
    |>.check (!m.threshold.isFinite) "threshold" "Threshold must be a finite number"

def toJson (m : Metric) : Json.Value :=
  .object
    [("id", m.id.toJson), ("metricsGroupId", m.metricsGroupId.toJson),
      ("dataSourceId", m.dataSourceId.toJson), ("nickname", .text m.nickname),
      ("query", .text m.query), ("metric", .text m.metric),
      ("filters", .array (m.filters.map MetricFilter.toJson)),
      ("groupBy", .array (m.groupBy.map Json.Value.text)),
      ("condition", match m.condition with
        | some condition => .text condition.name
        | none => .null),
      ("threshold", .number (.real m.threshold)), ("circleId", m.circleId.toJson),
      ("execution", m.execution.toJson), ("createdAt", m.createdAt.toJson)]

def fieldNames : List String :=
  ["id", "metricsGroupId", "dataSourceId", "nickname", "query", "metric", "filters",
    "groupBy", "condition", "threshold", "circleId", "execution", "createdAt"]

/-- Null, or a text that may name a condition; a text that names none is as good as null. -/
def lenientCondition : Json.Decoder (Option Condition) := fun levels tree => do
  let name ← Json.Decoder.nullable Json.Decoder.text levels tree
  pure (name.bind Condition.ofText?)

def decoder : Json.Decoder Metric :=
  Json.Decoder.entity fieldNames fun fields => do
    let id ← fields.orElse "id" EntityId.decoder Json.Decoder.freshId
    let metricsGroupId ← fields.orDefault "metricsGroupId" EntityId.decoder .nil
    let dataSourceId ← fields.orDefault "dataSourceId" EntityId.decoder .nil
    let nickname ← fields.orDefault "nickname" Json.Decoder.text ""
    let query ← fields.orDefault "query" Json.Decoder.text ""
    let metric ← fields.orDefault "metric" Json.Decoder.text ""
    let filters ←
      fields.orDefault "filters" (Json.Decoder.list MetricFilter.decoder) []
    let groupBy ← fields.orDefault "groupBy" (Json.Decoder.list Json.Decoder.text) []
    let condition ← fields.orDefault "condition" lenientCondition none
    let threshold ← fields.orDefault "threshold" Json.Decoder.binary64 .zero
    let circleId ← fields.orDefault "circleId" EntityId.decoder .nil
    let execution ←
      fields.orElse "execution" MetricExecution.decoder
        (fun supply => some (MetricExecution.fresh .nil supply))
    let createdAt ← fields.orElse "createdAt" Instant.decoder Json.Decoder.now
    pure
      { id, metricsGroupId, dataSourceId, nickname, query, metric, filters, groupBy,
        condition, threshold, circleId, execution, createdAt }

end Metric

end RolloutWatch

import RolloutWatch.Store.Contract

/-!
Rows of the relational store. Every column is text, so that numbers keep their exact value,
and the reader of a row checks each column again. A metric's row and its execution's row
together give the metric.
-/

namespace RolloutWatch

abbrev Parsed (α : Type) := Except PersistenceFault α

namespace Column

def id (name text : String) : Parsed EntityId :=
  match EntityId.ofString? text with
  | some id => .ok id
  | none => .error (.unreadable name)

def instantText (t : Instant) : String :=
  String.ofList (Rfc3339.rowText t)

def instant (text : String) : Parsed Instant :=
  match Rfc3339.strict? text.toList with
  | some t => .ok t
  | none => .error .unreadableInstant

def numberText (x : Binary64) : String :=
  String.ofList x.plainText

def number (name text : String) : Parsed Binary64 :=
  match Binary64.ofText? text.toList with
  | some x => .ok x
  | none => .error (.unreadable name)

def named {α : Type} (ofText? : String → Option α) (name text : String) : Parsed α :=
  match ofText? text with
  | some a => .ok a
  | none => .error (.unreadable name)

def listText (values : List Json.Value) : String :=
  (Json.Value.array values).render

def list {α : Type} (read : Json.Decoder α) (name text : String) : Parsed (List α) :=
  match Json.Decoder.readBytes? (Json.Decoder.list read) (Utf8.ofString text) with
  | some items => .ok items
  | none => .error (.unreadable name)

def conditionText : Option Condition → String
  | some condition => condition.name
  | none => ""

def condition (text : String) : Parsed (Option Condition) :=
  if text = "" then .ok none
  else (named Condition.ofText? "condition" text).map some

end Column

structure SourceRow where
  id : String
  name : String
  workspaceId : String
  pluginSrc : String
  sealedData : String
  health : String
  createdAt : String
  deletedAt : Option String
  deriving DecidableEq

namespace SourceRow

def ofSource (s : DataSource) : SourceRow :=
  { id := s.id.text
    name := s.name
    workspaceId := s.workspaceId.text
    pluginSrc := s.pluginSrc
    sealedData := s.sealedData
    health := s.health.name
    createdAt := Column.instantText s.createdAt
    deletedAt := s.deletedAt.map Column.instantText }

def deletion : Option String → Parsed (Option Instant)
  | none => .ok none
  | some text => (Column.instant text).map some

def toSource (r : SourceRow) : Parsed DataSource := do
  let id ← Column.id "id" r.id
  let workspaceId ← Column.id "workspace_id" r.workspaceId
  let health ← Column.named Health.ofText? "health" r.health
  let createdAt ← Column.instant r.createdAt
  let deletedAt ← deletion r.deletedAt
  pure
    { id, name := r.name, workspaceId, pluginSrc := r.pluginSrc, sealedData := r.sealedData,
      health, createdAt, deletedAt }

end SourceRow

structure GroupRow where
  id : String
  name : String
  workspaceId : String
  circleId : String
  createdAt : String
  deriving DecidableEq

namespace GroupRow

def ofGroup (g : MetricsGroup) : GroupRow :=
  { id := g.id.text
    name := g.name
    workspaceId := g.workspaceId.text
    circleId := g.circleId.text
    createdAt := Column.instantText g.createdAt }

def toGroup (r : GroupRow) (metrics : List Metric) : Parsed MetricsGroup := do
  let id ← Column.id "id" r.id
  let workspaceId ← Column.id "workspace_id" r.workspaceId
  let circleId ← Column.id "circle_id" r.circleId
  let createdAt ← Column.instant r.createdAt
  pure { id, name := r.name, metrics, workspaceId, circleId, createdAt }

end GroupRow

structure ExecutionRow where
  id : String
  metricId : String
  lastValue : String
  status : String
  createdAt : String
  deriving DecidableEq

namespace ExecutionRow

/-- An execution is stored under the identifier of its metric, whichever it names. -/
def ofExecution (metricId : EntityId) (e : MetricExecution) : ExecutionRow :=
  { id := e.id.text
    metricId := metricId.text
    lastValue := Column.numberText e.lastValue
    status := e.status.name
    createdAt := Column.instantText e.createdAt }

def toExecution (r : ExecutionRow) : Parsed MetricExecution := do
  let id ← Column.id "id" r.id
  let metricId ← Column.id "metric_id" r.metricId
  let lastValue ← Column.number "last_value" r.lastValue
  let status ← Column.named ExecutionStatus.ofText? "status" r.status
  let createdAt ← Column.instant r.createdAt
  pure { id, metricId, lastValue, status, createdAt }

end ExecutionRow

structure MetricRow where
  id : String
  metricsGroupId : String
  dataSourceId : String
  nickname : String
  query : String
  metric : String
  filters : String
  groupBy : String
  condition : String
  threshold : String
  circleId : String
  createdAt : String
  deriving DecidableEq

namespace MetricRow

def ofMetric (m : Metric) : MetricRow :=
  { id := m.id.text
    metricsGroupId := m.metricsGroupId.text
    dataSourceId := m.dataSourceId.text
    nickname := m.nickname
    query := m.query
    metric := m.metric
    filters := Column.listText (m.filters.map MetricFilter.toJson)
    groupBy := Column.listText (m.groupBy.map Json.Value.text)
    condition := Column.conditionText m.condition
    threshold := Column.numberText m.threshold
    circleId := m.circleId.text
    createdAt := Column.instantText m.createdAt }

def withDefinitionOf (r : MetricRow) (m : Metric) : MetricRow :=
  let written := ofMetric m
  { r with
    dataSourceId := written.dataSourceId
    nickname := written.nickname
    query := written.query
    metric := written.metric
    filters := written.filters
    groupBy := written.groupBy
    condition := written.condition
    threshold := written.threshold
    circleId := written.circleId }

def toMetric (r : MetricRow) (e : ExecutionRow) : Parsed Metric := do
  let id ← Column.id "id" r.id
  let filters ← Column.list MetricFilter.decoder "filters" r.filters
  let groupBy ← Column.list Json.Decoder.text "group_by" r.groupBy
  let metricsGroupId ← Column.id "metrics_group_id" r.metricsGroupId
  let dataSourceId ← Column.id "data_source_id" r.dataSourceId
  let condition ← Column.condition r.condition
  let threshold ← Column.number "threshold" r.threshold
  let circleId ← Column.id "circle_id" r.circleId
  let execution ← ExecutionRow.toExecution { e with metricId := r.id }
  let createdAt ← Column.instant r.createdAt
  pure
    { id, metricsGroupId, dataSourceId, nickname := r.nickname, query := r.query,
      metric := r.metric, filters, groupBy, condition, threshold, circleId, execution,
      createdAt }

end MetricRow

end RolloutWatch

import RolloutWatch.Store.Row

/-!
The relational store: four tables of rows in the order of insertion, with unique keys, in
which lists are ordered by the text of their creation time. An insert of several rows is
undone as a whole if one of them is refused.
-/

namespace RolloutWatch

/-- The tables of a database, which outlive the connections to it. -/
structure Database where
  sources : List SourceRow
  groups : List GroupRow
  metrics : List MetricRow
  executions : List ExecutionRow
  deriving DecidableEq

namespace Database

def empty : Database :=
  { sources := [], groups := [], metrics := [], executions := [] }

def notUnique {α : Type} (column : String) : Except Error α :=
  .error (.persistence (.notUnique column))

def parsed {α : Type} : Parsed α → Except Error α
  | .ok a => .ok a
  | .error fault => .error (.persistence fault)

def insertSource (r : SourceRow) (db : Database) : Except Error Database :=
  if db.sources.any fun other => other.id = r.id then notUnique "data_sources.id"
  else .ok { db with sources := db.sources ++ [r] }

def insertGroup (r : GroupRow) (db : Database) : Except Error Database :=
  if db.groups.any fun other => other.id = r.id then notUnique "metrics_groups.id"
  else .ok { db with groups := db.groups ++ [r] }

/-- The row of the metric goes in first, then the row of its execution. -/
def insertMetric (m : Metric) (db : Database) : Except Error Database :=
  let row := MetricRow.ofMetric m
  let execution := ExecutionRow.ofExecution m.id m.execution
  if db.metrics.any fun other => other.id = row.id then notUnique "metrics.id"
  else if db.executions.any fun other => other.id = execution.id then
    notUnique "metric_executions.id"
  else if db.executions.any fun other => other.metricId = execution.metricId then
    notUnique "metric_executions.metric_id"
  else
    .ok { db with
      metrics := db.metrics ++ [row]
      executions := db.executions ++ [execution] }

def insertMetrics : List Metric → Database → Except Error Database
  | [], db => .ok db
  | m :: rest, db =>
      match insertMetric m db with
      | .error e => .error e
      | .ok db => insertMetrics rest db

/-- The execution's row that a metric's row is joined to. A metric without one is not read. -/
def join (db : Database) (r : MetricRow) : Option (MetricRow × ExecutionRow) :=
  (db.executions.find? fun e => e.metricId = r.id).map fun e => (r, e)

/-- The metrics of a group, ordered by creation time and then by insertion. -/
def metricsOf (db : Database) (groupId : String) : Parsed (List Metric) :=
  let rows := (db.metrics.filter fun r => r.metricsGroupId = groupId).filterMap db.join
  let ordered := rows.mergeSort fun a b => a.1.createdAt ≤ b.1.createdAt
  ordered.mapM fun (r, e) => r.toMetric e

/-- All group rows are read before the metrics of any of them. -/
def readGroups (db : Database) (rows : List GroupRow) : Parsed (List MetricsGroup) := do
  let groups ← rows.mapM fun r => r.toGroup []
  groups.mapM fun g => do
    let metrics ← db.metricsOf g.id.text
    pure { g with metrics }

end Database

/-- A connection to a database, open or closed. -/
structure RelationalStore where
  database : Database
  closed : Bool
  deriving DecidableEq

namespace RelationalStore

def onDatabase (db : Database) : RelationalStore :=
  { database := db, closed := false }

def whenOpen {α : Type} (s : RelationalStore) (answer : Except Error α) : Except Error α :=
  if s.closed then .error (.persistence .closed) else answer

def write (s : RelationalStore) (change : Database → Except Error Database) :
    Except Error RelationalStore :=
  s.whenOpen ((change s.database).map fun database => { s with database })

def writeWhere (s : RelationalStore) (found : Bool) (database : Database) :
    Except Error (Bool × RelationalStore) :=
  s.whenOpen (.ok (found, { s with database }))

def insertDataSource (source : DataSource) (s : RelationalStore) :
    Except Error RelationalStore :=
  s.write (Database.insertSource (.ofSource source))

def isLive (r : SourceRow) : Bool :=
  r.deletedAt.isNone

def findDataSource (id : EntityId) (s : RelationalStore) :
    Except Error (Option DataSource) :=
  s.whenOpen
    (match s.database.sources.find? fun r => r.id = id.text && isLive r with
      | none => .ok none
      | some r => (Database.parsed r.toSource).map some)

def isListed (workspaceId : EntityId) (health : Option Health) (r : SourceRow) : Bool :=
  r.workspaceId = workspaceId.text && isLive r
    && (match health with
      | some h => r.health = h.name
      | none => true)

/-- The order of listings: the text of the creation time, then the name. -/
def listedBefore (a b : SourceRow) : Bool :=
  a.createdAt < b.createdAt || (a.createdAt = b.createdAt && a.name ≤ b.name)

def listDataSources (workspaceId : EntityId) (health : Option Health) (s : RelationalStore) :
    Except Error (List DataSource) :=
  s.whenOpen
    (Database.parsed
      (((s.database.sources.filter (isListed workspaceId health)).mergeSort
        listedBefore).mapM SourceRow.toSource))

def changeSource (id : EntityId) (change : SourceRow → SourceRow) (s : RelationalStore) :
    Except Error (Bool × RelationalStore) :=
  let (found, sources) :=
    Store.updateFirst (fun r => r.id = id.text && isLive r) change s.database.sources
  s.writeWhere found { s.database with sources }

def setDataSourceHealth (id : EntityId) (health : Health) (s : RelationalStore) :
    Except Error (Bool × RelationalStore) :=
  s.changeSource id fun r => { r with health := health.name }

def softDeleteDataSource (id : EntityId) (deletedAt : Instant) (s : RelationalStore) :
    Except Error (Bool × RelationalStore) :=
  s.changeSource id fun r => { r with deletedAt := some (Column.instantText deletedAt) }

def insertMetricsGroup (g : MetricsGroup) (s : RelationalStore) :
    Except Error RelationalStore :=
  s.write fun db =>
    match db.insertGroup (.ofGroup g) with
    | .error e => .error e
    | .ok db => db.insertMetrics g.metrics

def listMetricsGroups (s : RelationalStore) : Except Error (List MetricsGroup) :=
  s.whenOpen
    (Database.parsed
      (s.database.readGroups
        (s.database.groups.mergeSort fun a b => a.createdAt ≤ b.createdAt)))

def findMetricsGroup (id : EntityId) (s : RelationalStore) :
    Except Error (Option MetricsGroup) :=
  s.whenOpen
    ((Database.parsed
      (s.database.readGroups (s.database.groups.filter fun r => r.id = id.text))).map
        List.head?)

def updateMetricsGroup (id : EntityId) (update : MetricsGroupUpdate) (s : RelationalStore) :
    Except Error (Bool × RelationalStore) :=
  let (found, groups) :=
    Store.updateFirst (fun r : GroupRow => r.id = id.text)
      (fun r => { r with name := update.name, circleId := update.circleId.text })
      s.database.groups
  s.writeWhere found { s.database with groups }

def removeMetrics (gone : MetricRow → Bool) (db : Database) : Database :=
  let removed := (db.metrics.filter gone).map MetricRow.id
  { db with
    metrics := db.metrics.filter fun r => !gone r
    executions := db.executions.filter fun e => !removed.contains e.metricId }

/-- The metrics that name the group go, also if there is no such group. -/
def deleteMetricsGroup (id : EntityId) (s : RelationalStore) :
    Except Error (Bool × RelationalStore) :=
  let kept := removeMetrics (fun r => r.metricsGroupId = id.text) s.database
  s.writeWhere (kept.groups.any fun r => r.id = id.text)
    { kept with groups := kept.groups.filter fun r => r.id ≠ id.text }

def insertMetric (m : Metric) (s : RelationalStore) : Except Error RelationalStore :=
  s.write fun db =>
    if db.groups.any fun r => r.id = m.metricsGroupId.text then db.insertMetric m
    else .error (.notFound .metricsGroup m.metricsGroupId)

def findMetric (id : EntityId) (s : RelationalStore) : Except Error (Option Metric) :=
  s.whenOpen
    (match (s.database.metrics.filter fun r => r.id = id.text).filterMap s.database.join with
      | [] => .ok none
      | (r, e) :: _ => (Database.parsed (r.toMetric e)).map some)

def updateMetric (m : Metric) (s : RelationalStore) : Except Error (Bool × RelationalStore) :=
  let (found, metrics) :=
    Store.updateFirst (fun r : MetricRow => r.id = m.id.text) (fun r => r.withDefinitionOf m)
      s.database.metrics
  s.writeWhere found { s.database with metrics }

def deleteMetric (id : EntityId) (s : RelationalStore) :
    Except Error (Bool × RelationalStore) :=
  s.writeWhere (s.database.metrics.any fun r => r.id = id.text)
    { s.database with
      metrics := s.database.metrics.filter fun r => r.id ≠ id.text
      executions := s.database.executions.filter fun e => e.metricId ≠ id.text }

def listMetricExecutions (s : RelationalStore) : Except Error (List MetricExecution) :=
  s.whenOpen
    (Database.parsed
      ((s.database.executions.mergeSort fun a b => a.createdAt ≤ b.createdAt).mapM
        ExecutionRow.toExecution))

def findMetricExecution (metricId : EntityId) (s : RelationalStore) :
    Except Error (Option MetricExecution) :=
  s.whenOpen
    (match s.database.executions.find? fun r => r.metricId = metricId.text with
      | none => .ok none
      | some r => (Database.parsed r.toExecution).map some)

def updateMetricExecution (e : MetricExecution) (s : RelationalStore) :
    Except Error (Bool × RelationalStore) :=
  let (found, executions) :=
    Store.updateFirst (fun r : ExecutionRow => r.id = e.id.text)
      (fun r =>
        { r with lastValue := Column.numberText e.lastValue, status := e.status.name })
      s.database.executions
  s.writeWhere found { s.database with executions }

def close (s : RelationalStore) : RelationalStore :=
  { s with closed := true }

instance : Store RelationalStore where
  insertDataSource := insertDataSource
  findDataSource := findDataSource
  listDataSources := listDataSources
  setDataSourceHealth := setDataSourceHealth
  softDeleteDataSource := softDeleteDataSource
  insertMetricsGroup := insertMetricsGroup
  listMetricsGroups := listMetricsGroups
  findMetricsGroup := findMetricsGroup
  updateMetricsGroup := updateMetricsGroup
  deleteMetricsGroup := deleteMetricsGroup
  insertMetric := insertMetric
  findMetric := findMetric
  updateMetric := updateMetric
  deleteMetric := deleteMetric
  listMetricExecutions := listMetricExecutions
  findMetricExecution := findMetricExecution
  updateMetricExecution := updateMetricExecution
  close := close

end RelationalStore

end RolloutWatch

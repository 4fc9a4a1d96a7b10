import RolloutWatch.Store.Contract

/-!
The store in memory: four lists in the order of insertion. Groups are kept without their
metrics and metrics are read together with their executions. Closing keeps the tables and
refuses every later call.
-/

namespace RolloutWatch

structure MemoryStore where
  sources : List DataSource
  groups : List MetricsGroup
  metrics : List Metric
  executions : List MetricExecution
  closed : Bool
  deriving DecidableEq

namespace MemoryStore

def empty : MemoryStore :=
  { sources := [], groups := [], metrics := [], executions := [], closed := false }

def whenOpen {α : Type} (s : MemoryStore) (answer : Except Error α) : Except Error α :=
  if s.closed then .error (.persistence .closed) else answer

def duplicate {α : Type} (kind : EntityKind) (id : EntityId) : Except Error α :=
  .error (.persistence (.duplicate kind id))

def executionFor (s : MemoryStore) (metricId : EntityId) : Option MetricExecution :=
  s.executions.find? fun e => e.metricId = metricId

/-- The metric as it is read: with the execution that is stored for it. -/
def hydrate (s : MemoryStore) (m : Metric) : Metric :=
  match s.executionFor m.id with
  | some execution => { m with execution }
  | none => m

def hydrateGroup (s : MemoryStore) (g : MetricsGroup) : MetricsGroup :=
  { g with metrics := (s.metrics.filter fun m => m.metricsGroupId = g.id).map s.hydrate }

/-- Without the metrics that have a property, and without the executions of these. -/
def removeMetrics (s : MemoryStore) (gone : Metric → Bool) : MemoryStore :=
  let removed := (s.metrics.filter gone).map Metric.id
  { s with
    metrics := s.metrics.filter fun m => !gone m
    executions := s.executions.filter fun e => !removed.contains e.metricId }

def insertDataSource (source : DataSource) (s : MemoryStore) : Except Error MemoryStore :=
  s.whenOpen
    (if s.sources.any fun other => other.id = source.id then duplicate .dataSource source.id
      else .ok { s with sources := s.sources ++ [source] })

def findDataSource (id : EntityId) (s : MemoryStore) : Except Error (Option DataSource) :=
  s.whenOpen
    (.ok ((s.sources.find? fun source => source.id = id).filter fun source =>
      !source.isDeleted))

def listedBefore (a b : DataSource) : Bool :=
  a.createdAt.before b.createdAt || (!b.createdAt.before a.createdAt && a.name ≤ b.name)

def isListed (workspaceId : EntityId) (health : Option Health) (source : DataSource) : Bool :=
  !source.isDeleted && source.workspaceId = workspaceId
    && (match health with
      | some h => source.health = h
      | none => true)

def listDataSources (workspaceId : EntityId) (health : Option Health) (s : MemoryStore) :
    Except Error (List DataSource) :=
  s.whenOpen (.ok ((s.sources.filter (isListed workspaceId health)).mergeSort listedBefore))

def changeSource (id : EntityId) (change : DataSource → DataSource) (s : MemoryStore) :
    Except Error (Bool × MemoryStore) :=
  let (found, sources) :=
    Store.updateFirst (fun source => source.id = id && !source.isDeleted) change s.sources
  s.whenOpen (.ok (found, { s with sources }))

def setDataSourceHealth (id : EntityId) (health : Health) (s : MemoryStore) :
    Except Error (Bool × MemoryStore) :=
  s.changeSource id fun source => { source with health }

def softDeleteDataSource (id : EntityId) (deletedAt : Instant) (s : MemoryStore) :
    Except Error (Bool × MemoryStore) :=
  s.changeSource id fun source => { source with deletedAt := some deletedAt }

/-- The first of some metrics whose identifier is taken, in the store or by one before it. -/
def firstTaken (s : MemoryStore) : List EntityId → List Metric → Option EntityId
  | _, [] => none
  | before, m :: rest =>
      if before.contains m.id || s.metrics.any fun other => other.id = m.id then some m.id
      else firstTaken s (m.id :: before) rest

def insertMetricsGroup (g : MetricsGroup) (s : MemoryStore) : Except Error MemoryStore :=
  s.whenOpen
    (if s.groups.any fun other => other.id = g.id then duplicate .metricsGroup g.id
      else
        match s.firstTaken [] g.metrics with
        | some id => duplicate .metric id
        | none =>
            .ok { s with
              groups := s.groups ++ [{ g with metrics := [] }]
              metrics := s.metrics ++ g.metrics
              executions := s.executions ++ g.metrics.map Metric.execution })

def listMetricsGroups (s : MemoryStore) : Except Error (List MetricsGroup) :=
  s.whenOpen (.ok (s.groups.map s.hydrateGroup))

def findMetricsGroup (id : EntityId) (s : MemoryStore) : Except Error (Option MetricsGroup) :=
  s.whenOpen (.ok ((s.groups.find? fun g => g.id = id).map s.hydrateGroup))

def updateMetricsGroup (id : EntityId) (update : MetricsGroupUpdate) (s : MemoryStore) :
    Except Error (Bool × MemoryStore) :=
  let (found, groups) :=
    Store.updateFirst (fun g => g.id = id)
      (fun g => { g with name := update.name, circleId := update.circleId }) s.groups
  s.whenOpen (.ok (found, { s with groups }))

def deleteMetricsGroup (id : EntityId) (s : MemoryStore) : Except Error (Bool × MemoryStore) :=
  s.whenOpen
    (if s.groups.any fun g => g.id = id then
      .ok (true,
        removeMetrics { s with groups := s.groups.filter fun g => g.id ≠ id }
          fun m => m.metricsGroupId = id)
    else .ok (false, s))

def insertMetric (m : Metric) (s : MemoryStore) : Except Error MemoryStore :=
  s.whenOpen
    (if !s.groups.any fun g => g.id = m.metricsGroupId then
      .error (.notFound .metricsGroup m.metricsGroupId)
    else if s.metrics.any fun other => other.id = m.id then duplicate .metric m.id
    else
      .ok { s with
        metrics := s.metrics ++ [m]
        executions := s.executions ++ [m.execution] })

def findMetric (id : EntityId) (s : MemoryStore) : Except Error (Option Metric) :=
  s.whenOpen (.ok ((s.metrics.find? fun m => m.id = id).map s.hydrate))

def updateMetric (m : Metric) (s : MemoryStore) : Except Error (Bool × MemoryStore) :=
  let (found, metrics) :=
    Store.updateFirst (fun row => row.id = m.id) (fun row => row.withDefinitionOf m) s.metrics
  s.whenOpen (.ok (found, { s with metrics }))

def deleteMetric (id : EntityId) (s : MemoryStore) : Except Error (Bool × MemoryStore) :=
  s.whenOpen
    (.ok (s.metrics.any fun m => m.id = id, s.removeMetrics fun m => m.id = id))

def listMetricExecutions (s : MemoryStore) : Except Error (List MetricExecution) :=
  s.whenOpen (.ok s.executions)

def findMetricExecution (metricId : EntityId) (s : MemoryStore) :
    Except Error (Option MetricExecution) :=
  s.whenOpen (.ok (s.executionFor metricId))

def updateMetricExecution (e : MetricExecution) (s : MemoryStore) :
    Except Error (Bool × MemoryStore) :=
  let (found, executions) :=
    Store.updateFirst (fun row => row.id = e.id) (fun row => row.withStateOf e) s.executions
  s.whenOpen (.ok (found, { s with executions }))

def close (s : MemoryStore) : MemoryStore :=
  { s with closed := true }

instance : Store MemoryStore where
  insertDataSource := insertDataSource
  findDataSource := findDataSource
  listDataSources := listDataSources
  setDataSourceHealth := setDataSourceHealth
  softDeleteDataSource := softDeleteDataSource
  insertMetricsGroup := insertMetricsGroup
  listMetricsGroups := listMetricsGroups
  findMetricsGroup := findMetricsGroup
  updateMetricsGroup := updateMetricsGroup
  deleteMetricsGroup := deleteMetricsGroup
  insertMetric := insertMetric
  findMetric := findMetric
  updateMetric := updateMetric
  deleteMetric := deleteMetric
  listMetricExecutions := listMetricExecutions
  findMetricExecution := findMetricExecution
  updateMetricExecution := updateMetricExecution
  close := close

end MemoryStore

end RolloutWatch

import RolloutWatch.Proofs.Store.Operation

/-!
What the typed updates of a store may change, as it shows in every read. An update that finds
nothing leaves the store as it is. One that finds its row changes the named fields of this row, in
whatever answer the row occurs, and no order of rows.
-/

namespace RolloutWatch

namespace DataSource

def withHealth (id : EntityId) (health : Health) (source : DataSource) : DataSource :=
  if source.id = id then { source with health } else source

end DataSource

namespace MetricsGroup

def updatedBy (id : EntityId) (u : MetricsGroupUpdate) (g : MetricsGroup) : MetricsGroup :=
  if g.id = id then { g with name := u.name, circleId := u.circleId } else g

def viewedBy (onGroup : MetricsGroup → MetricsGroup) (onMetric : Metric → Metric)
    (g : MetricsGroup) : MetricsGroup :=
  { onGroup g with metrics := g.metrics.map onMetric }

variable {groupId : EntityId} {u : MetricsGroupUpdate}

theorem updatedBy_kept {α : Type} (field : MetricsGroup → α)
    (same : ∀ g name circleId, field { g with name, circleId } = field g) (g : MetricsGroup) :
    field (g.updatedBy groupId u) = field g := by
  unfold updatedBy
  split
  · exact same g _ _
  · rfl

/-- An update does not look at the metrics. -/
theorem updatedBy_withMetrics (g : MetricsGroup) (metrics viewed : List Metric) :
    { updatedBy groupId u { g with metrics } with metrics := viewed } =
      { updatedBy groupId u g with metrics := viewed } := by
  unfold updatedBy
  split <;> rfl

end MetricsGroup

namespace Metric

def updatedBy (definition m : Metric) : Metric :=
  if m.id = definition.id then m.withDefinitionOf definition else m

theorem updatedBy_kept {α : Type} {definition : Metric} (field : Metric → α)
    (same : ∀ m : Metric, field (m.withDefinitionOf definition) = field m) (m : Metric) :
    field (updatedBy definition m) = field m := by
  unfold updatedBy
  split
  · exact same m
  · rfl

def withStateOf (owner : EntityId) (state : MetricExecution) (m : Metric) : Metric :=
  if m.id = owner ∧ m.execution.id = state.id then
    { m with execution := m.execution.withStateOf state }
  else m

end Metric

namespace MetricExecution

def withStateFor (owner : EntityId) (state e : MetricExecution) : MetricExecution :=
  if e.metricId = owner ∧ e.id = state.id then e.withStateOf state else e

end MetricExecution

namespace Store

theorem viewedBy_updatedBy (groupId : EntityId) (u : MetricsGroupUpdate) :
    MetricsGroup.viewedBy (MetricsGroup.updatedBy groupId u) id =
      MetricsGroup.updatedBy groupId u := by
  funext g
  unfold MetricsGroup.viewedBy MetricsGroup.updatedBy
  rw [List.map_id]
  split <;> rfl

variable {σ : Type} [Store σ]

structure SourcesKept (before after : σ) : Prop where
  source : ∀ id, Store.findDataSource id after = Store.findDataSource id before
  sources : ∀ workspaceId health,
    Store.listDataSources workspaceId health after =
      Store.listDataSources workspaceId health before

structure TrackedKept (before after : σ) : Prop where
  group : ∀ id, Store.findMetricsGroup id after = Store.findMetricsGroup id before
  groups : Store.listMetricsGroups after = Store.listMetricsGroups before
  metric : ∀ id, Store.findMetric id after = Store.findMetric id before
  execution : ∀ id, Store.findMetricExecution id after = Store.findMetricExecution id before
  executions : Store.listMetricExecutions after = Store.listMetricExecutions before

/-- Groups, metrics and executions are read as before, but for changes to what is read. Lists keep
their lengths and their orders. -/
structure TrackedThrough (onGroup : MetricsGroup → MetricsGroup) (onMetric : Metric → Metric)
    (onExecution : MetricExecution → MetricExecution)
    (onExecutions : List MetricExecution → List MetricExecution) (before after : σ) : Prop where
  group : ∀ id, Store.findMetricsGroup id after =
    (Store.findMetricsGroup id before).map (Option.map onGroup)
  groups : Store.listMetricsGroups after =
    (Store.listMetricsGroups before).map (List.map onGroup)
  metric : ∀ id, Store.findMetric id after =
    (Store.findMetric id before).map (Option.map onMetric)
  execution : ∀ id, Store.findMetricExecution id after =
    (Store.findMetricExecution id before).map (Option.map onExecution)
  executions : Store.listMetricExecutions after =
    (Store.listMetricExecutions before).map onExecutions

structure GroupUpdated (groupId : EntityId) (u : MetricsGroupUpdate) (before after : σ) :
    Prop where
  addressed : Store.findMetricsGroup groupId before ≠ .ok none
  sources : SourcesKept before after
  tracked : TrackedThrough (MetricsGroup.updatedBy groupId u) id id id before after

structure MetricUpdated (definition : Metric) (before after : σ) : Prop where
  addressed : Store.findMetric definition.id before ≠ .ok none
  sources : SourcesKept before after
  tracked : TrackedThrough
    (fun g => { g with metrics := g.metrics.map (Metric.updatedBy definition) })
    (Metric.updatedBy definition) id id before after

/-- The reading and the status of one execution have been written, and nothing else. Where
executions can be listed, it is the first one that has the identifier. -/
structure ExecutionUpdated (state : MetricExecution) (owner : EntityId) (before after : σ) :
    Prop where
  addressed : ∀ listed, Store.listMetricExecutions before = .ok listed →
    (listed.find? fun e => e.id = state.id).map MetricExecution.metricId = some owner
  sources : SourcesKept before after
  tracked : TrackedThrough
    (fun g => { g with metrics := g.metrics.map (Metric.withStateOf owner state) })
    (Metric.withStateOf owner state) (MetricExecution.withStateFor owner state)
    (fun listed => (updateFirst (fun e => e.id = state.id) (fun e => e.withStateOf state) listed).2)
    before after

/-- The health of one live source has been written, and nothing else. A listing by health shows
what has the health now. Whether a listing can be read at all may depend on which sources it shows,
and then the other ones are still the same. -/
structure HealthSet (holds : σ → List DataSource → Prop) (id : EntityId) (health : Health)
    (before after : σ) : Prop where
  stored : ∃ sources, holds before sources ∧ sources.any (DataSource.isLive id) = true ∧
    holds after
      (Contents.changeWhere (DataSource.isLive id) (fun source => { source with health }) sources)
  tracked : TrackedKept before after
  source : ∀ other, Store.findDataSource other after =
    (Store.findDataSource other before).map (Option.map (DataSource.withHealth id health))
  listed : ∀ workspaceId,
    Store.listDataSources workspaceId none after =
      (Store.listDataSources workspaceId none before).map
        (List.map (DataSource.withHealth id health))
  listedBy : ∀ workspaceId wanted listed,
    Store.listDataSources workspaceId none before = .ok listed →
      Store.listDataSources workspaceId (some wanted) after =
        .ok ((listed.map (DataSource.withHealth id health)).filter fun source =>
          source.health = wanted)
  others : ∀ workspaceId wanted listed later,
    Store.listDataSources workspaceId wanted before = .ok listed →
      Store.listDataSources workspaceId wanted after = .ok later →
        (later.filter fun source => source.id ≠ id) = listed.filter fun source => source.id ≠ id

/-- The deletion of one live source has been written, and nothing else, which shows in what the
store is said to hold. No read shows the source any more. -/
structure SourceDeleted (holds : σ → List DataSource → Prop) (id : EntityId) (deletedAt : Instant)
    (before after : σ) : Prop where
  stored : ∃ sources, holds before sources ∧ sources.any (DataSource.isLive id) = true ∧
    holds after
      (Contents.changeWhere (DataSource.isLive id)
        (fun source => { source with deletedAt := some deletedAt }) sources)
  tracked : TrackedKept before after
  gone : Store.findDataSource id after = .ok none
  source : ∀ other, other ≠ id →
    Store.findDataSource other after = Store.findDataSource other before
  listed : ∀ workspaceId wanted listed,
    Store.listDataSources workspaceId wanted before = .ok listed →
      Store.listDataSources workspaceId wanted after =
        .ok (listed.filter fun source => source.id ≠ id)

/-- The typed updates of a store write the fields that they name, and answer whether there has been
a row to write to. Numbers are kept as the store keeps them. -/
structure WritesOnlyNamed (settle : Binary64 → Binary64) (holds : σ → List DataSource → Prop)
    (s : σ) : Prop where
  group : ∀ id u found after, Store.updateMetricsGroup id u s = .ok (found, after) →
    if found then GroupUpdated id u s after else after = s
  metric : ∀ m found after, Store.updateMetric m s = .ok (found, after) →
    if found then MetricUpdated { m with threshold := settle m.threshold } s after
    else after = s
  /-- What else a metric says of itself is not looked at. -/
  ignored : ∀ m execution metricsGroupId createdAt,
    Store.updateMetric { m with execution, metricsGroupId, createdAt } s = Store.updateMetric m s
  execution : ∀ e found after, Store.updateMetricExecution e s = .ok (found, after) →
    if found then
      ∃ owner, ExecutionUpdated { e with lastValue := settle e.lastValue } owner s after
    else after = s
  health : ∀ id health found after, Store.setDataSourceHealth id health s = .ok (found, after) →
    if found then HealthSet holds id health s after else after = s
  deletion : ∀ id deletedAt found after,
    Store.softDeleteDataSource id deletedAt s = .ok (found, after) →
      if found then SourceDeleted holds id deletedAt s after else after = s

end Store

end RolloutWatch

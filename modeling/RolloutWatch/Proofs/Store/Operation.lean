import RolloutWatch.Proofs.Service.Catalogue

/-!
The operations of a store, in any order and with any arguments, and a ledger of what they leave.
The ledger is changed by what each operation means, so that a store can be compared with it. The
services are a user of the operations like any other.
-/

namespace RolloutWatch

inductive StoreOperation where
  | insertDataSource (source : DataSource)
  | setDataSourceHealth (id : EntityId) (health : Health)
  | softDeleteDataSource (id : EntityId) (deletedAt : Instant)
  | insertMetricsGroup (g : MetricsGroup)
  | updateMetricsGroup (id : EntityId) (update : MetricsGroupUpdate)
  | deleteMetricsGroup (id : EntityId)
  | insertMetric (m : Metric)
  | updateMetric (m : Metric)
  | deleteMetric (id : EntityId)
  | updateMetricExecution (e : MetricExecution)
  | close

/-- The store after an operation, or the error that has left the store as it was. -/
def StoreOperation.perform {σ : Type} [Store σ] : StoreOperation → σ → Except Error σ
  | .insertDataSource source, s => Store.insertDataSource source s
  | .setDataSourceHealth id health, s => (Store.setDataSourceHealth id health s).map Prod.snd
  | .softDeleteDataSource id deletedAt, s =>
      (Store.softDeleteDataSource id deletedAt s).map Prod.snd
  | .insertMetricsGroup g, s => Store.insertMetricsGroup g s
  | .updateMetricsGroup id update, s => (Store.updateMetricsGroup id update s).map Prod.snd
  | .deleteMetricsGroup id, s => (Store.deleteMetricsGroup id s).map Prod.snd
  | .insertMetric m, s => Store.insertMetric m s
  | .updateMetric m, s => (Store.updateMetric m s).map Prod.snd
  | .deleteMetric id, s => (Store.deleteMetric id s).map Prod.snd
  | .updateMetricExecution e, s => (Store.updateMetricExecution e s).map Prod.snd
  | .close, s => .ok (Store.close s)

/-- What operations have left: the sources, deleted ones included, the groups without their
metrics, and the metrics with their executions, each in the order of insertion. -/
structure Contents where
  sources : List DataSource
  groups : List MetricsGroup
  metrics : List Metric

namespace Contents

def empty : Contents :=
  { sources := [], groups := [], metrics := [] }

def changeWhere {α : Type} (p : α → Bool) (change : α → α) (items : List α) : List α :=
  items.map fun a => if p a then change a else a

def changeExecution (e : MetricExecution) (m : Metric) : Metric :=
  { m with execution := m.execution.withStateOf e }

/-- The contents after an operation that has succeeded. A group takes its metrics with it. -/
def after (c : Contents) : StoreOperation → Contents
  | .insertDataSource source => { c with sources := c.sources ++ [source] }
  | .setDataSourceHealth id health =>
      { c with
        sources := changeWhere (DataSource.isLive id) (fun source => { source with health })
          c.sources }
  | .softDeleteDataSource id deletedAt =>
      { c with
        sources := changeWhere (DataSource.isLive id)
          (fun source => { source with deletedAt := some deletedAt }) c.sources }
  | .insertMetricsGroup g =>
      { c with
        groups := c.groups ++ [{ g with metrics := [] }]
        metrics := c.metrics ++ g.metrics }
  | .updateMetricsGroup id update =>
      { c with
        groups := changeWhere (fun g => g.id = id)
          (fun g => { g with name := update.name, circleId := update.circleId }) c.groups }
  | .deleteMetricsGroup id =>
      { c with
        groups := c.groups.filter fun g => g.id ≠ id
        metrics := c.metrics.filter fun m => m.metricsGroupId ≠ id }
  | .insertMetric m => { c with metrics := c.metrics ++ [m] }
  | .updateMetric m =>
      { c with
        metrics := changeWhere (fun row => row.id = m.id) (fun row => row.withDefinitionOf m)
          c.metrics }
  | .deleteMetric id => { c with metrics := c.metrics.filter fun m => m.id ≠ id }
  | .updateMetricExecution e =>
      { c with
        metrics := changeWhere (fun m => m.execution.id = e.id) (changeExecution e) c.metrics }
  | .close => c

end Contents

/-- A store and its ledger after an operation, which may fail and change nothing then. -/
def StoreOperation.record {σ : Type} [Store σ] (state : σ × Contents)
    (operation : StoreOperation) : σ × Contents :=
  match operation.perform state.1 with
  | .ok after => (after, state.2.after operation)
  | .error _ => state

namespace Store

theorem map_snd_ok {σ : Type} {answer : Except Error (Bool × σ)} {after : σ} :
    answer.map Prod.snd = .ok after ↔ ∃ found, answer = .ok (found, after) := by
  cases answer with
  | error fault =>
      constructor
      · intro impossible
        cases impossible
      · rintro ⟨found, impossible⟩
        cases impossible
  | ok result =>
      obtain ⟨found, left⟩ := result
      constructor
      · intro same
        cases same
        exact ⟨found, rfl⟩
      · rintro ⟨other, same⟩
        cases same
        rfl

variable {σ : Type} [Store σ]

/-- The stores that operations lead to, with what they have left. A store may be opened again in
some way, or in none. -/
inductive Operated (start : σ) (reopens : σ → σ → Prop) (allowed : StoreOperation → Prop) :
    σ → Contents → Prop where
  | started : Operated start reopens allowed start .empty
  | performed {s after : σ} {c : Contents} (earlier : Operated start reopens allowed s c)
      (operation : StoreOperation) (permitted : allowed operation)
      (done : operation.perform s = .ok after) :
      Operated start reopens allowed after (c.after operation)
  | reopened {s again : σ} {c : Contents} (earlier : Operated start reopens allowed s c)
      (opened : reopens s again) : Operated start reopens allowed again c

variable {start : σ} {reopens : σ → σ → Prop} {allowed : StoreOperation → Prop}

/-- What holds at first and is kept by every operation and by every opening, holds wherever
operations lead. -/
theorem Operated.invariant {property : σ → Contents → Prop} (first : property start .empty)
    (step : ∀ {s after : σ} {c : Contents} (operation : StoreOperation), property s c →
      allowed operation → operation.perform s = .ok after → property after (c.after operation))
    (again : ∀ {s opened : σ} {c : Contents}, property s c → reopens s opened →
      property opened c) {s : σ} {c : Contents}
    (operated : Operated start reopens allowed s c) : property s c := by
  induction operated with
  | started => exact first
  | performed earlier operation permitted done ih => exact step operation ih permitted done
  | reopened earlier opened ih => exact again ih opened

theorem Operated.records (operations : List StoreOperation)
    (permitted : ∀ operation ∈ operations, allowed operation) {state : σ × Contents}
    (operated : Operated start reopens allowed state.1 state.2) :
    Operated start reopens allowed (operations.foldl StoreOperation.record state).1
      (operations.foldl StoreOperation.record state).2 := by
  induction operations generalizing state with
  | nil => exact operated
  | cons operation rest ih =>
      obtain ⟨here, later⟩ := List.forall_mem_cons.mp permitted
      apply ih later
      unfold StoreOperation.record
      cases done : operation.perform state.1 with
      | error fault => exact operated
      | ok after => exact operated.performed operation here done

theorem Operated.executionWrites {s after : σ} (written : ExecutionWrites s after) {c : Contents}
    (operated : Operated start reopens (fun _ => True) s c) :
    ∃ later, Operated start reopens (fun _ => True) after later := by
  induction written with
  | refl => exact ⟨c, operated⟩
  | tail earlier last ih =>
      obtain ⟨later, between⟩ := ih
      obtain ⟨e, found, updated⟩ := last
      exact ⟨_, between.performed (.updateMetricExecution e) trivial (map_snd_ok.mpr ⟨_, updated⟩)⟩

/-- The services make no other changes than the operations do. -/
theorem Operated.next {s : σ} {c : Contents}
    (operated : Operated start reopens (fun _ => True) s c) (turn : Turn) :
    ∃ later, Operated start reopens (fun _ => True) (turn.next s) later := by
  have change := turn.change s
  generalize turn.next s = after at change ⊢
  cases change with
  | kept => exact ⟨c, operated⟩
  | sourceCreated input written =>
      exact ⟨_, operated.performed (.insertDataSource _) trivial written⟩
  | sourceDeleted id deletedAt written =>
      exact ⟨_, operated.performed (.softDeleteDataSource id deletedAt) trivial
        (map_snd_ok.mpr ⟨_, written⟩)⟩
  | healthSet id health written =>
      exact ⟨_, operated.performed (.setDataSourceHealth id health) trivial
        (map_snd_ok.mpr ⟨_, written⟩)⟩
  | groupCreated g drawn written =>
      exact ⟨_, operated.performed (.insertMetricsGroup _) trivial written⟩
  | groupUpdated id u written =>
      exact ⟨_, operated.performed (.updateMetricsGroup id u) trivial
        (map_snd_ok.mpr ⟨_, written⟩)⟩
  | groupDeleted id written =>
      exact ⟨_, operated.performed (.deleteMetricsGroup id) trivial (map_snd_ok.mpr ⟨_, written⟩)⟩
  | metricAdded groupId circleId m drawn written =>
      exact ⟨_, operated.performed (.insertMetric _) trivial written⟩
  | metricUpdated m written =>
      exact ⟨_, operated.performed (.updateMetric m) trivial (map_snd_ok.mpr ⟨_, written⟩)⟩
  | metricRemoved id written =>
      exact ⟨_, operated.performed (.deleteMetric id) trivial (map_snd_ok.mpr ⟨_, written⟩)⟩
  | executionsWritten writes written => exact operated.executionWrites written
  | closed => exact ⟨_, operated.performed .close trivial rfl⟩

end Store

end RolloutWatch

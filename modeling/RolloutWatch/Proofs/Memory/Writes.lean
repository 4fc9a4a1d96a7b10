import RolloutWatch.Proofs.Store.Rows
import RolloutWatch.Store.Memory

/-!
What the writes of the store in memory leave behind when they succeed. Only an open store is
written to. An update of a row keeps what identifies the row, so that the links between the
tables are the same after it.
-/

namespace RolloutWatch

namespace MetricExecution

def identity (e : MetricExecution) : EntityId × EntityId × Instant :=
  (e.id, e.metricId, e.createdAt)

end MetricExecution

namespace MemoryStore

theorem whenOpen_ok {α : Type} {s : MemoryStore} {answer : Except Error α} {a : α}
    (answered : s.whenOpen answer = .ok a) : s.closed = false ∧ answer = .ok a := by
  unfold whenOpen at answered
  cases state : s.closed with
  | true =>
      rw [state] at answered
      cases answered
  | false =>
      rw [state] at answered
      exact ⟨rfl, answered⟩

theorem whenOpen_of_open {α : Type} {s : MemoryStore} (answer : Except Error α)
    (state : s.closed = false) : s.whenOpen answer = answer := by
  unfold whenOpen
  rw [state]
  rfl

structure Links where
  groups : List EntityId
  metrics : List (EntityId × EntityId)
  executions : List (EntityId × EntityId × Instant)

def links (s : MemoryStore) : Links :=
  { groups := s.groups.map MetricsGroup.id
    metrics := s.metrics.map fun m => (m.id, m.metricsGroupId)
    executions := s.executions.map MetricExecution.identity }

def metricIds (s : MemoryStore) : List EntityId :=
  s.metrics.map Metric.id

theorem changeSource_tables {id : EntityId} {change : DataSource → DataSource}
    {s after : MemoryStore} {found : Bool}
    (written : s.changeSource id change = .ok (found, after)) :
    ∃ sources, after = { s with sources } := by
  obtain ⟨_, result⟩ := whenOpen_ok written
  cases result
  exact ⟨_, rfl⟩

theorem insertDataSource_tables {source : DataSource} {s after : MemoryStore}
    (written : insertDataSource source s = .ok after) :
    ∃ sources, after = { s with sources } := by
  obtain ⟨_, result⟩ := whenOpen_ok written
  split at result
  · cases result
  · cases result
    exact ⟨_, rfl⟩

theorem updateMetricsGroup_links {id : EntityId} {u : MetricsGroupUpdate}
    {s after : MemoryStore} {found : Bool}
    (written : updateMetricsGroup id u s = .ok (found, after)) :
    after.links = s.links ∧ after.metrics = s.metrics ∧ after.executions = s.executions := by
  obtain ⟨_, result⟩ := whenOpen_ok written
  cases result
  refine ⟨congrArg (fun groups => { s.links with groups }) ?_, rfl, rfl⟩
  apply Store.map_updateFirst
  intro row
  rfl

theorem updateMetric_links {m : Metric} {s after : MemoryStore} {found : Bool}
    (written : updateMetric m s = .ok (found, after)) :
    after.links = s.links ∧ after.executions = s.executions := by
  obtain ⟨_, result⟩ := whenOpen_ok written
  cases result
  refine ⟨congrArg (fun metrics => { s.links with metrics }) ?_, rfl⟩
  apply Store.map_updateFirst
  intro row
  rfl

theorem updateMetricExecution_links {e : MetricExecution} {s after : MemoryStore}
    {found : Bool} (written : updateMetricExecution e s = .ok (found, after)) :
    after.links = s.links := by
  obtain ⟨_, result⟩ := whenOpen_ok written
  cases result
  refine congrArg (fun executions => { s.links with executions }) ?_
  apply Store.map_updateFirst
  intro row
  rfl

theorem firstTaken_eq_none {s : MemoryStore} {before : List EntityId} {ms : List Metric}
    (free : s.firstTaken before ms = none) :
    (ms.map Metric.id).Nodup ∧ ∀ m ∈ ms, m.id ∉ before ∧ m.id ∉ s.metricIds := by
  induction ms generalizing before with
  | nil => exact ⟨List.nodup_nil, fun m member => absurd member List.not_mem_nil⟩
  | cons m rest ih =>
      unfold firstTaken at free
      split at free
      · cases free
      · rename_i untaken
        simp only [Bool.or_eq_true, not_or, List.contains_iff_mem, List.any_eq_true,
          decide_eq_true_eq, not_exists, not_and] at untaken
        obtain ⟨restDistinct, restFree⟩ := ih free
        constructor
        · refine List.nodup_cons.mpr ⟨?_, restDistinct⟩
          intro again
          obtain ⟨other, member, same⟩ := List.mem_map.mp again
          apply (restFree other member).1
          rw [same]
          exact List.mem_cons_self
        · intro other member
          rcases List.mem_cons.mp member with here | later
          · rw [here]
            refine ⟨untaken.1, ?_⟩
            intro stored
            obtain ⟨row, present, same⟩ := List.mem_map.mp stored
            exact untaken.2 row present same
          · exact ⟨fun earlier => (restFree other later).1 (List.mem_cons_of_mem _ earlier),
              (restFree other later).2⟩

theorem insertMetricsGroup_tables {g : MetricsGroup} {s after : MemoryStore}
    (written : insertMetricsGroup g s = .ok after) :
    g.id ∉ s.groups.map MetricsGroup.id ∧ (g.metrics.map Metric.id).Nodup ∧
      (∀ m ∈ g.metrics, m.id ∉ s.metricIds) ∧
      after =
        { s with
          groups := s.groups ++ [{ g with metrics := [] }]
          metrics := s.metrics ++ g.metrics
          executions := s.executions ++ g.metrics.map Metric.execution } := by
  obtain ⟨_, result⟩ := whenOpen_ok written
  split at result
  · cases result
  · rename_i untaken
    split at result
    · cases result
    · rename_i free
      cases result
      obtain ⟨distinct, others⟩ := firstTaken_eq_none free
      refine ⟨?_, distinct, fun m member => (others m member).2, rfl⟩
      intro stored
      obtain ⟨row, present, same⟩ := List.mem_map.mp stored
      exact untaken (List.any_eq_true.mpr ⟨row, present, decide_eq_true same⟩)

theorem insertMetric_tables {m : Metric} {s after : MemoryStore}
    (written : insertMetric m s = .ok after) :
    m.metricsGroupId ∈ s.groups.map MetricsGroup.id ∧ m.id ∉ s.metricIds ∧
      after =
        { s with
          metrics := s.metrics ++ [m]
          executions := s.executions ++ [m.execution] } := by
  obtain ⟨_, result⟩ := whenOpen_ok written
  split at result
  · cases result
  · rename_i owned
    split at result
    · cases result
    · rename_i untaken
      cases result
      refine ⟨?_, ?_, rfl⟩
      · simp only [Bool.not_eq_true', Bool.not_eq_false, List.any_eq_true,
          decide_eq_true_eq] at owned
        obtain ⟨row, present, same⟩ := owned
        exact List.mem_map.mpr ⟨row, present, same⟩
      · intro stored
        obtain ⟨row, present, same⟩ := List.mem_map.mp stored
        exact untaken (List.any_eq_true.mpr ⟨row, present, decide_eq_true same⟩)

/-- With no metric to remove no execution is removed either. -/
theorem removeMetrics_of_none {s : MemoryStore} {gone : Metric → Bool}
    (kept : ∀ m ∈ s.metrics, gone m = false) : s.removeMetrics gone = s := by
  have removed : s.metrics.filter gone = [] :=
    List.filter_eq_nil_iff.mpr fun m member => by rw [kept m member]; decide
  have metrics : s.metrics.filter (fun m => !gone m) = s.metrics :=
    List.filter_eq_self.mpr fun m member => by rw [kept m member]; rfl
  have executions : s.executions.filter (fun e =>
      !(([] : List Metric).map Metric.id).contains e.metricId) = s.executions :=
    List.filter_eq_self.mpr fun e _ => rfl
  unfold removeMetrics
  rw [removed, metrics]
  simp only
  rw [executions]

theorem deleteMetricsGroup_tables {id : EntityId} {s after : MemoryStore} {found : Bool}
    (written : deleteMetricsGroup id s = .ok (found, after)) :
    after = s ∨
      after =
        removeMetrics { s with groups := s.groups.filter fun g => g.id ≠ id }
          fun m => m.metricsGroupId = id := by
  obtain ⟨_, result⟩ := whenOpen_ok written
  split at result
  · cases result
    exact .inr rfl
  · cases result
    exact .inl rfl

theorem deleteMetric_tables {id : EntityId} {s after : MemoryStore} {found : Bool}
    (written : deleteMetric id s = .ok (found, after)) :
    after = s.removeMetrics fun m => m.id = id := by
  obtain ⟨_, result⟩ := whenOpen_ok written
  cases result
  rfl

end MemoryStore

end RolloutWatch

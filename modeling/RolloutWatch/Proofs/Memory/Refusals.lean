import RolloutWatch.Proofs.Memory.Recording
import RolloutWatch.Proofs.Service.Refusals

/-!
Writes to the store in memory that find nothing, and what is found after those that find something.
A row that is updated keeps its identifier, so that it is found under the identifier afterwards.
-/

namespace RolloutWatch.MemoryStore

variable {s after : MemoryStore}

theorem updateFirst_misses {α : Type} (p : α → Bool) (change : α → α) (rows : List α)
    (put : List α → MemoryStore) (same : put rows = s) :
    Misses s fun s => s.whenOpen
      (.ok ((Store.updateFirst p change rows).1, put (Store.updateFirst p change rows).2)) := by
  intro after missed
  obtain ⟨-, result⟩ := whenOpen_ok missed
  obtain ⟨nothing, rfl⟩ := Prod.mk.inj (Except.ok.inj result)
  rw [Store.updateFirst_of_not_found _ _ _ nothing, same]

theorem changeSource_misses (id : EntityId) (change : DataSource → DataSource) :
    Misses s (changeSource id change) :=
  updateFirst_misses _ change s.sources (fun sources => { s with sources }) rfl

theorem deleteMetricsGroup_misses (id : EntityId) : Misses s (deleteMetricsGroup id) := by
  intro after missed
  obtain ⟨-, result⟩ := whenOpen_ok missed
  split at result
  · cases result
  · cases result
    rfl

theorem deleteMetric_misses (id : EntityId) : Misses s (deleteMetric id) := by
  intro after missed
  obtain ⟨-, result⟩ := whenOpen_ok missed
  obtain ⟨absent, rfl⟩ := Prod.mk.inj (Except.ok.inj result)
  apply removeMetrics_of_none
  intro m stored
  exact (Bool.not_eq_true _).mp (List.any_eq_false.mp absent m stored)

theorem findMetricsGroup_of_row (opened : s.closed = false) {id : EntityId} {row : MetricsGroup}
    (found : s.groups.find? (fun g => g.id = id) = some row) :
    findMetricsGroup id s = .ok (some (s.hydrateGroup row)) := by
  refine (whenOpen_of_open _ opened).trans ?_
  rw [found]
  rfl

theorem findMetric_of_row (opened : s.closed = false) {id : EntityId} {row : Metric}
    (found : s.metrics.find? (fun m => m.id = id) = some row) :
    findMetric id s = .ok (some (s.hydrate row)) := by
  refine (whenOpen_of_open _ opened).trans ?_
  rw [found]
  rfl

theorem findMetricsGroup_of_updated {id : EntityId} {u : MetricsGroupUpdate}
    (written : updateMetricsGroup id u s = .ok (true, after)) :
    ∃ g, findMetricsGroup id after = .ok (some g) := by
  obtain ⟨opened, result⟩ := whenOpen_ok written
  obtain ⟨present, rfl⟩ := Prod.mk.inj (Except.ok.inj result)
  obtain ⟨row, found⟩ := Store.exists_find_updated MetricsGroup.id present fun _ => rfl
  refine ⟨_, findMetricsGroup_of_row ?_ found⟩
  exact opened

theorem findMetric_of_updated {m : Metric} (written : updateMetric m s = .ok (true, after)) :
    ∃ stored, findMetric m.id after = .ok (some stored) := by
  obtain ⟨opened, result⟩ := whenOpen_ok written
  obtain ⟨present, rfl⟩ := Prod.mk.inj (Except.ok.inj result)
  obtain ⟨row, found⟩ := Store.exists_find_updated Metric.id present fun _ => rfl
  refine ⟨_, findMetric_of_row ?_ found⟩
  exact opened

/-- The store keeps its promises whatever is stored, and open or closed. -/
theorem reliable (s : MemoryStore) : Reliable s where
  health id _ := changeSource_misses id _
  sourceDeletion id _ := changeSource_misses id _
  groupUpdate _ _ := updateFirst_misses _ _ s.groups (fun groups => { s with groups }) rfl
  groupDeletion := deleteMetricsGroup_misses
  metricUpdate _ := updateFirst_misses _ _ s.metrics (fun metrics => { s with metrics }) rfl
  metricDeletion := deleteMetric_misses
  groupFound := findMetricsGroup_of_updated
  metricFound := findMetric_of_updated

end RolloutWatch.MemoryStore

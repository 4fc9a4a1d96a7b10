import RolloutWatch.Proofs.Memory.Effect
import RolloutWatch.Proofs.Service.Persisted

/-!
Executions in the store in memory. Each has an identifier and a metric of its own, so that an
update changes the one with the identifier, and a listing has what is found by metrics.
-/

namespace RolloutWatch.MemoryStore

theorem listMetricExecutions_ok {s : MemoryStore} {all : List MetricExecution}
    (listed : Store.listMetricExecutions s = .ok all) :
    s.closed = false ∧ all = s.executions := by
  obtain ⟨opened, result⟩ := whenOpen_ok listed
  exact ⟨opened, (Except.ok.inj result).symm⟩

theorem executionFor_of_mem {s : MemoryStore}
    (owners : (s.executions.map MetricExecution.metricId).Nodup) {e : MetricExecution}
    (stored : e ∈ s.executions) : s.executionFor e.metricId = some e := by
  obtain ⟨first, found⟩ := Store.exists_find_of_mem_keys MetricExecution.metricId e.metricId
    s.executions (List.mem_map_of_mem stored)
  obtain ⟨present, names⟩ := executionFor_names found
  rw [← List.inj_on_of_nodup_map owners present stored names]
  exact names ▸ found

theorem updateMetricExecution_ok {s after : MemoryStore} {e : MetricExecution} {found : Bool}
    (ids : (s.executions.map MetricExecution.id).Nodup)
    (written : Store.updateMetricExecution e s = .ok (found, after)) :
    after = s.mapExecutions (MetricExecution.restated e) ∧
      found = s.executions.any fun row => row.id = e.id := by
  obtain ⟨-, result⟩ := whenOpen_ok written
  obtain ⟨changed, store⟩ := Prod.mk.inj (Except.ok.inj result)
  rw [Store.updateFirst_found] at changed
  rw [Store.updateFirst_of_nodup MetricExecution.id e.id _ _ ids] at store
  exact ⟨store.symm, changed.symm⟩

theorem Owned.keepsState {s : MemoryStore} (owned : Owned s) : Tracker.KeepsState id s where
  names found := (executionFor_names (Except.ok.inj (whenOpen_ok found).2)).2
  listed_iff := by
    intro all listed e
    obtain ⟨opened, rfl⟩ := listMetricExecutions_ok listed
    have owners : (s.executions.map MetricExecution.metricId).Nodup := by
      rw [owned.executions]
      exact owned.metricIds
    constructor
    · intro stored
      refine (whenOpen_of_open _ opened).trans ?_
      exact congrArg Except.ok (executionFor_of_mem owners stored)
    · intro found
      exact (executionFor_names (Except.ok.inj (whenOpen_ok found).2)).1
  ids := by
    intro all listed a stored b otherStored same
    obtain ⟨-, rfl⟩ := listMetricExecutions_ok listed
    exact List.inj_on_of_nodup_map owned.executionIds stored otherStored same
  updated := by
    intro e found after written
    obtain ⟨rfl, -⟩ := updateMetricExecution_ok owned.executionIds written
    exact answersThrough owned.toLinked (MetricExecution.restated_metricId _)
  present := by
    intro e after all written listed
    obtain ⟨-, rfl⟩ := listMetricExecutions_ok listed
    obtain ⟨-, present⟩ := updateMetricExecution_ok owned.executionIds written
    obtain ⟨row, stored, same⟩ := List.any_eq_true.mp present.symm
    exact ⟨row, stored, of_decide_eq_true same⟩

theorem readable_of_open {world : World MemoryStore} (opened : world.store.closed = false) :
    Tracker.Readable world :=
  ⟨world.store.executions, Tracker.findAll_ok_iff.mpr (whenOpen_of_open _ opened)⟩

end RolloutWatch.MemoryStore

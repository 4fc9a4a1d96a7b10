import RolloutWatch.Proofs.Memory.Effect
import RolloutWatch.Proofs.Memory.Recording
import RolloutWatch.Proofs.Scheduler.Pass

/-!
The groups of the store in memory as a pass finds them: each under its identifier, with metrics of
its own that are held with their executions.
-/

namespace RolloutWatch.MemoryStore

open Scheduler

theorem keepsReadings {s : MemoryStore} (linked : Linked s) : KeepsReadings Holds take s where
  takes := takesReadings
  answers policy rs distinct kept := by
    rw [foldl_take policy distinct]
    exact answersThrough linked (Recording.applyAll_metricId policy rs)
  named id e found := (executionFor_names (Except.ok.inj (whenOpen_ok found).2)).2
  commute policy r q apart t := by
    have commute := @Store.changes_commute Recording MetricExecution EntityId _
      (fun r => r.metric.id) MetricExecution.metricId
      (fun r e => Tracker.afterReading policy r.metric r.value e) (fun _ _ => rfl) r q apart
    unfold take mapExecutions
    rw [List.map_map, List.map_map, commute]

def listed (s : MemoryStore) : List MetricsGroup :=
  s.groups.map s.hydrateGroup

theorem listMetricsGroups_of_open {s : MemoryStore} (opened : s.closed = false) :
    Store.listMetricsGroups s = .ok s.listed :=
  whenOpen_of_open _ opened

theorem Linked.find_listed {s : MemoryStore} (linked : Linked s) (opened : s.closed = false)
    {row : MetricsGroup} (stored : row ∈ s.groups) :
    Store.findMetricsGroup row.id s = .ok (some (s.hydrateGroup row)) := by
  obtain ⟨found, first⟩ := Store.exists_find_of_mem_keys MetricsGroup.id row.id s.groups
    (List.mem_map_of_mem stored)
  obtain ⟨present, same⟩ := Store.find_some_key MetricsGroup.id first
  have own : found = row := List.inj_on_of_nodup_map linked.groupIds present stored same
  refine (whenOpen_of_open _ opened).trans ?_
  rw [first, own]
  rfl

/-- No metric is stored in two groups. -/
theorem Linked.listed_apart {s : MemoryStore} (linked : Linked s) :
    ∀ g ∈ s.listed, ∀ h ∈ s.listed, ∀ m ∈ g.metrics, ∀ n ∈ h.metrics,
      m.id = n.id → g.id = h.id := by
  intro g here h there m own n other same
  obtain ⟨row, -, rfl⟩ := List.mem_map.mp here
  obtain ⟨otherRow, -, rfl⟩ := List.mem_map.mp there
  obtain ⟨bare, ofRow, rfl⟩ := List.mem_map.mp own
  obtain ⟨otherBare, ofOther, rfl⟩ := List.mem_map.mp other
  rw [hydrate_id, hydrate_id] at same
  obtain ⟨stored, owner⟩ := List.mem_filter.mp ofRow
  obtain ⟨otherStored, otherOwner⟩ := List.mem_filter.mp ofOther
  have equal := List.inj_on_of_nodup_map linked.metricIds stored otherStored same
  exact (of_decide_eq_true owner).symm.trans
    ((congrArg Metric.metricsGroupId equal).trans (of_decide_eq_true otherOwner))

theorem Owned.pending {s : MemoryStore} (owned : Owned s) (opened : s.closed = false) :
    Pending Holds s [] s.listed := by
  have linked := owned.toLinked
  have loaded : ∀ g ∈ s.listed, Store.findMetricsGroup g.id s = .ok (some g) := by
    intro g member
    obtain ⟨row, stored, rfl⟩ := List.mem_map.mp member
    have found := linked.find_listed opened stored
    exact found
  refine
    { kept := fun _ member => absurd member List.not_mem_nil
      loaded
      held := fun g member m own => ?_
      distinct := distinct_of_apart ?_ (fun g member => (linked.loads (loaded g member)).1)
        linked.listed_apart }
  · have held := owned.holds (loaded g member) m own
    exact ⟨held, (executionFor_names held.found).2⟩
  · unfold listed
    rw [List.map_map]
    exact linked.groupIds

end RolloutWatch.MemoryStore

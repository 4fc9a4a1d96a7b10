import RolloutWatch.Proofs.Relational.Creation
import RolloutWatch.Proofs.Relational.Effect
import RolloutWatch.Proofs.Scheduler.Pass

/-!
The groups of a database as a pass finds them. Their keys are unique, so that each is found under
its identifier, and with times in common years all of them can be read.
-/

namespace RolloutWatch

namespace Database

theorem metricsOf_member {db : Database} {groupId : String} {metrics : List Metric}
    (read : db.metricsOf groupId = .ok metrics) {m : Metric} (member : m ∈ metrics) :
    ∃ r ∈ db.metrics, r.metricsGroupId = groupId ∧ ∃ e, r.toMetric e = .ok m := by
  obtain ⟨row, chosen, readRow⟩ := Parsed.exists_source (Parsed.mapM_ok read) member
  have joined := (List.mergeSort_perm _ _).subset chosen
  obtain ⟨r, own, found⟩ := List.mem_filterMap.mp joined
  obtain ⟨stored, names⟩ := List.mem_filter.mp own
  obtain ⟨rfl, -⟩ := join_eq_some found
  exact ⟨row.1, stored, of_decide_eq_true names, row.2, readRow⟩

end Database

namespace RelationalStore

open Database Scheduler

theorem Reachable.groupKeys {s : RelationalStore} (reachable : Reachable s) :
    (s.database.groups.map GroupRow.id).Nodup := by
  induction reachable with
  | created => exact List.nodup_nil
  | next turn reachable ih => exact groupKeys_change ih (turn.change _)
  | reopened reachable ih => exact ih

theorem keepsReadings {s : RelationalStore} (keys : UniqueKeys s.database)
    (formed : WellFormed s.database) : KeepsReadings Holds take s where
  takes := takesReadings
  answers policy rs distinct kept := by
    rw [foldl_take policy distinct]
    exact answersThrough_readings keys formed policy distinct (fun r member => (kept r member).1)
      fun r member => (kept r member).2
  named id e found := findMetricExecution_names found
  commute policy r q apart t := by
    have texts : r.metric.id.text ≠ q.metric.id.text := fun same =>
      apart (EntityId.text_injective same)
    have commute := @Store.changes_commute Recording ExecutionRow String _
      (fun r => r.metric.id.text) ExecutionRow.metricId (ExecutionRow.afterReading policy)
      (fun _ _ => rfl) r q texts
    unfold take mapExecutionRows
    rw [List.map_map, List.map_map, commute]

/-! ### Listed groups -/

section

variable {s : RelationalStore} {gs : List MetricsGroup}

theorem listed_rows (formed : WellFormed s.database)
    (listed : Store.listMetricsGroups s = .ok gs) :
    (∀ g ∈ gs, ∃ r ∈ s.database.groups, r.id = g.id.text ∧ s.database.readGroup r = .ok g) ∧
      gs.map (fun g => g.id.text) =
        (s.database.groups.mergeSort fun a b => a.createdAt ≤ b.createdAt).map GroupRow.id := by
  obtain ⟨-, read⟩ := listMetricsGroups_ok.mp listed
  have sorted := List.mergeSort_perm s.database.groups fun a b => a.createdAt ≤ b.createdAt
  have rows : List.Forall₂ (fun r g => r ∈ s.database.groups ∧ r.id = g.id.text ∧
      s.database.readGroup r = .ok g)
      (s.database.groups.mergeSort fun a b => a.createdAt ≤ b.createdAt) gs := by
    refine ((List.forall₂_and_left _ _).mpr
      ⟨fun r chosen => sorted.subset chosen, Parsed.mapM_ok read⟩).imp ?_
    rintro r g ⟨stored, readRow⟩
    exact ⟨stored, formed.readGroup_id stored readRow, readRow⟩
  constructor
  · intro g member
    obtain ⟨r, -, stored, key, readRow⟩ := Parsed.exists_source rows member
    exact ⟨r, stored, key, readRow⟩
  · rw [← List.forall₂_eq_eq_eq, List.forall₂_map_left_iff, List.forall₂_map_right_iff]
    exact rows.flip.imp fun _ _ both => both.2.1.symm

theorem find_listed (keys : (s.database.groups.map GroupRow.id).Nodup)
    (opened : s.closed = false) {r : GroupRow} {g : MetricsGroup} (stored : r ∈ s.database.groups)
    (key : r.id = g.id.text) (read : s.database.readGroup r = .ok g) :
    Store.findMetricsGroup g.id s = .ok (some g) := by
  have single := Store.filter_of_nodup GroupRow.id keys stored
  rw [key] at single
  have readAll : s.database.readGroups [r] = .ok [g] :=
    readGroups_ok.mpr (Parsed.mapM_ok_iff.mpr (.cons read .nil))
  refine (whenOpen_of_open _ opened).trans ?_
  rw [single, readAll]
  rfl

/-- No metric is stored in two groups. -/
theorem listed_apart (keys : UniqueKeys s.database) {g h : MetricsGroup} {r q : GroupRow}
    (read : s.database.readGroup r = .ok g) (readOther : s.database.readGroup q = .ok h)
    {m n : Metric} (own : m ∈ g.metrics) (other : n ∈ h.metrics) (same : m.id = n.id) :
    g.id = h.id := by
  obtain ⟨bare, -, ms, readMetrics, rfl⟩ := readGroup_ok.mp read
  obtain ⟨otherBare, -, ns, readOthers, rfl⟩ := readGroup_ok.mp readOther
  obtain ⟨row, stored, owner, e, readRow⟩ := metricsOf_member readMetrics own
  obtain ⟨otherRow, otherStored, otherOwner, f, readOtherRow⟩ := metricsOf_member readOthers other
  have key := Column.id_text (MetricRow.toMetric_id readRow).1 (keys.metricTexts row stored)
  have otherKey := Column.id_text (MetricRow.toMetric_id readOtherRow).1
    (keys.metricTexts otherRow otherStored)
  have equal := List.inj_on_of_nodup_map keys.metricIds stored otherStored
    (key.trans ((congrArg EntityId.text same).trans otherKey.symm))
  exact EntityId.text_injective (owner.symm.trans
    ((congrArg MetricRow.metricsGroupId equal).trans otherOwner))

theorem pending (keys : UniqueKeys s.database) (formed : WellFormed s.database)
    (groupKeys : (s.database.groups.map GroupRow.id).Nodup)
    (listed : Store.listMetricsGroups s = .ok gs) : Pending Holds s [] gs := by
  obtain ⟨opened, -⟩ := listMetricsGroups_ok.mp listed
  obtain ⟨rows, texts⟩ := listed_rows formed listed
  have loaded : ∀ g ∈ gs, Store.findMetricsGroup g.id s = .ok (some g) := by
    intro g member
    obtain ⟨r, stored, key, read⟩ := rows g member
    exact find_listed groupKeys opened stored key read
  have ids : (gs.map MetricsGroup.id).Nodup := by
    apply List.Nodup.of_map EntityId.text
    rw [List.map_map]
    exact texts ▸ ((List.mergeSort_perm _ _).map GroupRow.id).nodup_iff.mpr groupKeys
  refine
    { kept := fun _ member => absurd member List.not_mem_nil
      loaded
      held := fun g member m own => ?_
      distinct := distinct_of_apart ids (fun g member => (holds keys (loaded g member)).1) ?_ }
  · have held := (holds keys (loaded g member)).2 m own
    obtain ⟨row, found, read⟩ := held.row
    exact ⟨held, findMetricExecution_names (findMetricExecution_of_row held.opened found read)⟩
  · intro g here h there m own n other same
    obtain ⟨r, -, -, read⟩ := rows g here
    obtain ⟨q, -, -, readOther⟩ := rows h there
    exact listed_apart keys read readOther own other same

end

end RelationalStore

end RolloutWatch

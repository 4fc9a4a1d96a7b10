import RolloutWatch.Proofs.Relational.Pass
import RolloutWatch.Proofs.Relational.Roster
import RolloutWatch.Proofs.Service.Refusals

/-!
Writes to the relational store that find nothing, and what can be read after those that find
something. A deletion looks for rows that belong to what is deleted whether or not it is there, and
it finds none because metrics belong to groups that are there and executions to metrics that are
there. What has been updated is read from rows that are still well-formed and joined.
-/

namespace RolloutWatch

namespace Database

/-- Every metric has an execution, and every execution belongs to a metric that is there. -/
structure Paired (db : Database) : Prop where
  joined : Joined db
  attached : db.executions.map ExecutionRow.metricId ⊆ db.metrics.map MetricRow.id

theorem empty_paired : Paired empty :=
  { joined := fun _ member => absurd member List.not_mem_nil
    attached := List.nil_subset _ }

end Database

namespace RelationalStore

open Database

variable {s after : RelationalStore}

theorem paired_change {turn : Turn} (keys : UniqueKeys s.database) (paired : Paired s.database)
    (change : Change turn s after) : Paired after.database := by
  refine { joined := joined_change keys paired.joined change, attached := ?_ }
  obtain ⟨kept, new, metrics, executions⟩ := keysStep keys change
  rw [metrics, executions]
  exact keys_subset paired.attached kept new

theorem Reachable.paired (reachable : Reachable s) : Paired s.database := by
  induction reachable with
  | created => exact empty_paired
  | next turn reachable ih => exact paired_change reachable.uniqueKeys ih (turn.change _)
  | reopened reachable ih => exact ih

/-! ### Writes that find nothing -/

theorem updateFirst_misses {α : Type} (p : α → Bool) (change : α → α) (rows : List α)
    (put : List α → Database) (same : put rows = s.database) :
    Misses s fun s => s.writeWhere (Store.updateFirst p change rows).1
      (put (Store.updateFirst p change rows).2) := by
  intro after missed
  obtain ⟨rfl, nothing⟩ := writeWhere_ok missed
  rw [Store.updateFirst_of_not_found _ _ _ nothing.symm, same]

theorem changeSource_misses (id : EntityId) (change : SourceRow → SourceRow) :
    Misses s (changeSource id change) :=
  updateFirst_misses _ change s.database.sources (fun sources => { s.database with sources }) rfl

theorem filter_of_none {α : Type} {gone keep : α → Bool} {rows : List α}
    (none : rows.any gone = false) (others : ∀ row, gone row = false → keep row = true) :
    rows.filter keep = rows :=
  List.filter_eq_self.mpr fun row stored =>
    others row ((Bool.not_eq_true _).mp (List.any_eq_false.mp none row stored))

theorem removeMetrics_of_none {gone : MetricRow → Bool} {db : Database}
    (none : db.metrics.any gone = false) : removeMetrics gone db = db := by
  have removed : db.metrics.filter gone = [] :=
    List.filter_eq_nil_iff.mpr (List.any_eq_false.mp none)
  have metrics : db.metrics.filter (fun r => !gone r) = db.metrics :=
    filter_of_none none fun r stays => congrArg not stays
  have executions : db.executions.filter (fun e => !([] : List String).contains e.metricId) =
      db.executions := List.filter_eq_self.mpr fun _ _ => rfl
  unfold removeMetrics
  rw [removed, metrics]
  exact congrArg (fun executions => { db with executions }) executions

/-- No metric names a group that is not there. -/
theorem deleteMetricsGroup_misses (formed : WellFormed s.database) (id : EntityId) :
    Misses s (deleteMetricsGroup id) := by
  intro after missed
  obtain ⟨rfl, nothing⟩ := writeWhere_ok missed
  have absent : s.database.groups.any (fun r => r.id = id.text) = false := nothing.symm
  have none : s.database.metrics.any (fun r => r.metricsGroupId = id.text) = false := by
    rw [List.any_eq_false] at absent ⊢
    intro r stored names
    obtain ⟨g, present, same⟩ := List.mem_map.mp (formed.owners r stored)
    exact absent g present (decide_eq_true (same.trans (of_decide_eq_true names)))
  have groups : s.database.groups.filter (fun r => r.id ≠ id.text) = s.database.groups :=
    filter_of_none absent fun r other => decide_eq_true (of_decide_eq_false other)
  rw [removeMetrics_of_none none, groups]

/-- No execution belongs to a metric that is not there. -/
theorem deleteMetric_misses (paired : Paired s.database) (id : EntityId) :
    Misses s (deleteMetric id) := by
  intro after missed
  obtain ⟨rfl, nothing⟩ := writeWhere_ok missed
  have absent : s.database.metrics.any (fun r => r.id = id.text) = false := nothing.symm
  have none : s.database.executions.any (fun e => e.metricId = id.text) = false := by
    rw [List.any_eq_false] at absent ⊢
    intro e stored names
    obtain ⟨r, present, same⟩ := List.mem_map.mp (paired.attached (List.mem_map_of_mem stored))
    exact absent r present (decide_eq_true (same.trans (of_decide_eq_true names)))
  have metrics : s.database.metrics.filter (fun r => r.id ≠ id.text) = s.database.metrics :=
    filter_of_none absent fun r other => decide_eq_true (of_decide_eq_false other)
  have executions : s.database.executions.filter (fun e => e.metricId ≠ id.text) =
      s.database.executions :=
    filter_of_none none fun e other => decide_eq_true (of_decide_eq_false other)
  rw [metrics, executions]

/-! ### Reads after writes that find something -/

/-- A group that is there can be read. -/
theorem findMetricsGroup_of_common (opened : s.closed = false)
    (keys : (s.database.groups.map GroupRow.id).Nodup) (formed : WellFormed s.database)
    (common : s.database.InCommonYears) {id : EntityId}
    (stored : id.text ∈ s.database.groups.map GroupRow.id) :
    ∃ g, findMetricsGroup id s = .ok (some g) := by
  obtain ⟨r, present, same⟩ := List.mem_map.mp stored
  obtain ⟨g, read⟩ := readGroup_of_common formed common present
  have key := formed.readGroup_id present read
  have own : id = g.id := EntityId.text_injective (same.symm.trans key)
  exact ⟨g, own ▸ find_listed keys opened present key read⟩

/-- A metric that is there can be read, since it has an execution. -/
theorem findMetric_of_common (opened : s.closed = false)
    (keys : (s.database.metrics.map MetricRow.id).Nodup) (formed : WellFormed s.database)
    (common : s.database.InCommonYears) (joined : Joined s.database) {id : EntityId}
    (stored : id.text ∈ s.database.metrics.map MetricRow.id) :
    ∃ m, findMetric id s = .ok (some m) := by
  obtain ⟨r, present, same⟩ := List.mem_map.mp stored
  obtain ⟨e, found⟩ :=
    Store.exists_find_of_mem_keys ExecutionRow.metricId r.id _ (joined r present)
  obtain ⟨executionStored, names⟩ := Store.find_some_key ExecutionRow.metricId found
  obtain ⟨m, read⟩ := toMetric_of_common (formed.metrics r present)
    (formed.executions e executionStored) (common.metrics r present)
    (common.executions e executionStored) names
  have row : s.database.join r = some (r, e) := congrArg (Option.map fun e => (r, e)) found
  have single := Store.filter_of_nodup MetricRow.id keys present
  rw [same] at single
  refine ⟨m, (whenOpen_of_open _ opened).trans ?_⟩
  rw [single, List.filterMap_cons_some row]
  simp only
  rw [read]
  rfl

theorem findMetricsGroup_of_updated (keys : (s.database.groups.map GroupRow.id).Nodup)
    (formed : WellFormed s.database) (common : s.database.InCommonYears) {id : EntityId}
    {u : MetricsGroupUpdate} (written : updateMetricsGroup id u s = .ok (true, after)) :
    ∃ g, findMetricsGroup id after = .ok (some g) := by
  obtain ⟨opened, -⟩ := whenOpen_ok written
  obtain ⟨rfl, present⟩ := writeWhere_ok written
  obtain ⟨r, found⟩ := Store.exists_find_updated GroupRow.id present.symm fun _ => rfl
  obtain ⟨changed, same⟩ := Store.find_some_key GroupRow.id found
  refine findMetricsGroup_of_common ?_ ?_ (formed.groupUpdated id u) ?_ ?_
  · exact opened
  · have ids := Store.map_updateFirst (fun r : GroupRow => r.id = id.text)
      (fun r => { r with name := u.name, circleId := u.circleId.text }) GroupRow.id
      (fun _ => rfl) s.database.groups
    exact ids ▸ keys
  · exact
      { groups := Store.forall_updateFirst common.groups fun _ created => created
        metrics := common.metrics
        executions := common.executions }
  · exact List.mem_map.mpr ⟨r, changed, same⟩

theorem findMetric_of_updated (keys : (s.database.metrics.map MetricRow.id).Nodup)
    (formed : WellFormed s.database) (common : s.database.InCommonYears)
    (joined : Joined s.database) {m : Metric} (written : updateMetric m s = .ok (true, after)) :
    ∃ stored, findMetric m.id after = .ok (some stored) := by
  obtain ⟨opened, -⟩ := whenOpen_ok written
  obtain ⟨rfl, present⟩ := writeWhere_ok written
  obtain ⟨r, found⟩ := Store.exists_find_updated MetricRow.id present.symm fun _ => rfl
  obtain ⟨changed, same⟩ := Store.find_some_key MetricRow.id found
  have ids := Store.map_updateFirst (fun r : MetricRow => r.id = m.id.text)
    (fun r => r.withDefinitionOf m) MetricRow.id (fun _ => rfl) s.database.metrics
  refine findMetric_of_common ?_ ?_ (formed.metricUpdated m) ?_ ?_ ?_
  · exact opened
  · exact ids ▸ keys
  · exact
      { groups := common.groups
        metrics := Store.forall_updateFirst common.metrics fun _ created => created
        executions := common.executions }
  · exact joined_iff.mpr (ids ▸ joined_iff.mp joined)
  · exact List.mem_map.mpr ⟨r, changed, same⟩

/-- A store that only the services have written to keeps its promises if times lie in common
years, open or closed. -/
theorem Reachable.reliable (reachable : Reachable s) (common : s.database.InCommonYears) :
    Reliable s where
  health id _ := changeSource_misses id _
  sourceDeletion id _ := changeSource_misses id _
  groupUpdate _ _ :=
    updateFirst_misses _ _ s.database.groups (fun groups => { s.database with groups }) rfl
  groupDeletion := deleteMetricsGroup_misses reachable.wellFormed
  metricUpdate _ :=
    updateFirst_misses _ _ s.database.metrics (fun metrics => { s.database with metrics }) rfl
  metricDeletion := deleteMetric_misses reachable.paired
  groupFound := findMetricsGroup_of_updated reachable.groupKeys reachable.wellFormed common
  metricFound :=
    findMetric_of_updated reachable.uniqueKeys.metricIds reachable.wellFormed common
      reachable.paired.joined

end RelationalStore

end RolloutWatch

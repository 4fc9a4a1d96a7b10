import RolloutWatch.Proofs.Relational.Rows
import RolloutWatch.Proofs.Service.Change
import RolloutWatch.Proofs.Store.Rows

/-!
Keys of the relational store. Rows of metrics and of executions have keys of their own, which
are texts of identifiers, and no two executions belong to one metric. The store checks keys
when rows are inserted, nothing changes a key, and so every turn keeps this.
-/

namespace RolloutWatch

namespace ExecutionRow

def keys (r : ExecutionRow) : String × String :=
  (r.id, r.metricId)

end ExecutionRow

namespace Database

structure UniqueKeys (db : Database) : Prop where
  metricIds : (db.metrics.map MetricRow.id).Nodup
  executionIds : (db.executions.map ExecutionRow.id).Nodup
  executionMetrics : (db.executions.map ExecutionRow.metricId).Nodup
  metricTexts : ∀ r ∈ db.metrics, ∃ id : EntityId, r.id = id.text
  executionTexts : ∀ r ∈ db.executions, ∃ id : EntityId, r.id = id.text

theorem empty_uniqueKeys : UniqueKeys empty :=
  { metricIds := List.nodup_nil
    executionIds := List.nodup_nil
    executionMetrics := List.nodup_nil
    metricTexts := fun _ member => absurd member List.not_mem_nil
    executionTexts := fun _ member => absurd member List.not_mem_nil }

theorem UniqueKeys.sublist {db after : Database} (keys : UniqueKeys db)
    (metrics : (after.metrics.map MetricRow.id).Sublist (db.metrics.map MetricRow.id))
    (executions : (after.executions.map ExecutionRow.keys).Sublist
      (db.executions.map ExecutionRow.keys)) : UniqueKeys after := by
  have ids := executions.map Prod.fst
  have metricIds := executions.map Prod.snd
  simp only [List.map_map, Function.comp_def, ExecutionRow.keys] at ids metricIds
  refine
    { metricIds := keys.metricIds.sublist metrics
      executionIds := keys.executionIds.sublist ids
      executionMetrics := keys.executionMetrics.sublist metricIds
      metricTexts := ?_
      executionTexts := ?_ }
  · intro r member
    obtain ⟨row, stored, same⟩ := List.mem_map.mp (metrics.subset (List.mem_map_of_mem member))
    obtain ⟨id, written⟩ := keys.metricTexts row stored
    exact ⟨id, same.symm.trans written⟩
  · intro r member
    obtain ⟨row, stored, same⟩ := List.mem_map.mp (ids.subset (List.mem_map_of_mem member))
    obtain ⟨id, written⟩ := keys.executionTexts row stored
    exact ⟨id, same.symm.trans written⟩

theorem UniqueKeys.insertMetric {db after : Database} {m : Metric} (keys : UniqueKeys db)
    (written : db.insertMetric m = .ok after) : UniqueKeys after := by
  unfold Database.insertMetric at written
  simp only [List.any_eq_true, decide_eq_true_eq] at written
  split at written
  · cases written
  · rename_i newMetric
    split at written
    · cases written
    · rename_i newId
      split at written
      · cases written
      · rename_i newOwner
        cases written
        refine
          { metricIds :=
              Store.nodup_concat keys.metricIds fun taken => newMetric (List.mem_map.mp taken)
            executionIds :=
              Store.nodup_concat keys.executionIds fun taken => newId (List.mem_map.mp taken)
            executionMetrics :=
              Store.nodup_concat keys.executionMetrics fun taken =>
                newOwner (List.mem_map.mp taken)
            metricTexts := ?_
            executionTexts := ?_ }
        · intro r member
          rcases List.mem_append.mp member with stored | added
          · exact keys.metricTexts r stored
          · rw [List.mem_singleton.mp added]
            exact ⟨m.id, rfl⟩
        · intro r member
          rcases List.mem_append.mp member with stored | added
          · exact keys.executionTexts r stored
          · rw [List.mem_singleton.mp added]
            exact ⟨m.execution.id, rfl⟩

theorem UniqueKeys.insertMetrics {ms : List Metric} {db after : Database}
    (keys : UniqueKeys db) (written : db.insertMetrics ms = .ok after) : UniqueKeys after := by
  induction ms generalizing db with
  | nil =>
      cases written
      exact keys
  | cons m rest ih =>
      unfold Database.insertMetrics at written
      cases first : db.insertMetric m with
      | error fault =>
          rw [first] at written
          cases written
      | ok between =>
          rw [first] at written
          exact ih (keys.insertMetric first) written

end Database

namespace RelationalStore

open Database

theorem whenOpen_ok {α : Type} {s : RelationalStore} {answer : Except Error α} {a : α}
    (answered : s.whenOpen answer = .ok a) : s.closed = false ∧ answer = .ok a := by
  unfold whenOpen at answered
  cases state : s.closed with
  | true =>
      rw [state] at answered
      cases answered
  | false =>
      rw [state] at answered
      exact ⟨rfl, answered⟩

theorem whenOpen_of_open {α : Type} {s : RelationalStore} (answer : Except Error α)
    (state : s.closed = false) : s.whenOpen answer = answer := by
  unfold whenOpen
  rw [state]
  rfl

theorem whenOpen_through {α β : Type} {s after : RelationalStore}
    (closed : after.closed = s.closed) {view : α → β} {answer : Except Error α}
    {shown : Except Error β} (same : shown = answer.map view) :
    after.whenOpen shown = (s.whenOpen answer).map view := by
  unfold whenOpen
  rw [same, closed]
  cases s.closed <;> rfl

theorem write_ok {s after : RelationalStore} {change : Database → Except Error Database}
    (written : s.write change = .ok after) :
    ∃ database, change s.database = .ok database ∧ after = { s with database } := by
  obtain ⟨-, result⟩ := whenOpen_ok written
  cases changed : change s.database with
  | error fault =>
      rw [changed] at result
      cases result
  | ok database =>
      rw [changed] at result
      cases result
      exact ⟨database, rfl, rfl⟩

theorem writeWhere_ok {s after : RelationalStore} {found present : Bool} {database : Database}
    (written : s.writeWhere found database = .ok (present, after)) :
    after = { s with database } ∧ present = found := by
  obtain ⟨-, result⟩ := whenOpen_ok written
  cases result
  exact ⟨rfl, rfl⟩

theorem insertMetricsGroup_ok {g : MetricsGroup} {s after : RelationalStore}
    (written : insertMetricsGroup g s = .ok after) :
    ∃ groups database,
      Database.insertMetrics g.metrics { s.database with groups } = .ok database ∧
        after = { s with database } := by
  obtain ⟨database, inserted, rfl⟩ := write_ok written
  unfold insertGroup at inserted
  split at inserted
  · cases inserted
  · rename_i grouped
    split at grouped
    · cases grouped
    · cases grouped
      exact ⟨_, database, inserted, rfl⟩

theorem insertMetric_ok {m : Metric} {s after : RelationalStore}
    (written : insertMetric m s = .ok after) :
    ∃ database, Database.insertMetric m s.database = .ok database ∧
      after = { s with database } := by
  obtain ⟨database, inserted, rfl⟩ := write_ok written
  split at inserted
  · exact ⟨database, inserted, rfl⟩
  · cases inserted

theorem updateMetricExecution_keys {e : MetricExecution} {s after : RelationalStore}
    {found : Bool} (written : updateMetricExecution e s = .ok (found, after)) :
    after.database.metrics = s.database.metrics ∧
      after.database.executions.map ExecutionRow.keys =
        s.database.executions.map ExecutionRow.keys := by
  obtain ⟨rfl, -⟩ := writeWhere_ok written
  refine ⟨rfl, ?_⟩
  apply Store.map_updateFirst
  intro row
  rfl

theorem executionWrites_keys {s after : RelationalStore} (written : ExecutionWrites s after) :
    after.database.metrics = s.database.metrics ∧
      after.database.executions.map ExecutionRow.keys =
        s.database.executions.map ExecutionRow.keys := by
  induction written with
  | refl => exact ⟨rfl, rfl⟩
  | tail earlier last ih =>
      obtain ⟨e, found, updated⟩ := last
      obtain ⟨metrics, executions⟩ := updateMetricExecution_keys updated
      exact ⟨metrics.trans ih.1, executions.trans ih.2⟩

/-- No turn takes a key twice or changes one. -/
theorem uniqueKeys_change {s after : RelationalStore} {turn : Turn}
    (keys : UniqueKeys s.database) (change : Change turn s after) :
    UniqueKeys after.database := by
  cases change with
  | kept => exact keys
  | closed => exact keys
  | sourceCreated input written =>
      obtain ⟨database, inserted, rfl⟩ := write_ok written
      unfold insertSource at inserted
      split at inserted
      · cases inserted
      · cases inserted
        exact keys.sublist (List.Sublist.refl _) (List.Sublist.refl _)
  | sourceDeleted id deletedAt written =>
      obtain ⟨rfl, -⟩ := writeWhere_ok written
      exact keys.sublist (List.Sublist.refl _) (List.Sublist.refl _)
  | healthSet id health written =>
      obtain ⟨rfl, -⟩ := writeWhere_ok written
      exact keys.sublist (List.Sublist.refl _) (List.Sublist.refl _)
  | groupCreated g drawn written =>
      obtain ⟨groups, database, inserted, rfl⟩ := insertMetricsGroup_ok written
      have grouped : UniqueKeys { s.database with groups } :=
        keys.sublist (List.Sublist.refl _) (List.Sublist.refl _)
      exact grouped.insertMetrics inserted
  | groupUpdated id u written =>
      obtain ⟨rfl, -⟩ := writeWhere_ok written
      exact keys.sublist (List.Sublist.refl _) (List.Sublist.refl _)
  | groupDeleted id written =>
      obtain ⟨rfl, -⟩ := writeWhere_ok written
      exact keys.sublist (List.filter_sublist.map _) (List.filter_sublist.map _)
  | metricAdded groupId circleId m drawn written =>
      obtain ⟨database, inserted, rfl⟩ := insertMetric_ok written
      exact keys.insertMetric inserted
  | metricUpdated m written =>
      obtain ⟨rfl, -⟩ := writeWhere_ok written
      refine keys.sublist ?_ (List.Sublist.refl _)
      have same : (Store.updateFirst (fun r : MetricRow => r.id = m.id.text)
          (fun r => r.withDefinitionOf m) s.database.metrics).2.map MetricRow.id =
            s.database.metrics.map MetricRow.id := by
        apply Store.map_updateFirst
        intro row
        rfl
      rw [← same]
  | metricRemoved id written =>
      obtain ⟨rfl, -⟩ := writeWhere_ok written
      exact keys.sublist (List.filter_sublist.map _) (List.filter_sublist.map _)
  | executionsWritten writes written =>
      obtain ⟨metrics, executions⟩ := executionWrites_keys written
      exact keys.sublist (by rw [metrics]) (by rw [executions])

/-- Connections to a database that only the services have written to. A database may be closed
and opened again. -/
inductive Reachable : RelationalStore → Prop where
  | created : Reachable (onDatabase .empty)
  | next {s : RelationalStore} (turn : Turn) (reachable : Reachable s) : Reachable (turn.next s)
  | reopened {s : RelationalStore} (reachable : Reachable s) : Reachable (onDatabase s.database)

theorem Reachable.uniqueKeys {s : RelationalStore} (reachable : Reachable s) :
    Database.UniqueKeys s.database := by
  induction reachable with
  | created => exact Database.empty_uniqueKeys
  | next turn reachable ih => exact uniqueKeys_change ih (turn.change _)
  | reopened reachable ih => exact ih

end RelationalStore

end RolloutWatch

import RolloutWatch.Proofs.Evaluation.Failure
import RolloutWatch.Proofs.Relational.Keys

/-!
Recordings in the relational store. A group is loaded only if every row of its metrics and of
their executions can be read, and a recording writes to one row, so that the rows of the other
metrics can still be read when their turn comes.
-/

namespace RolloutWatch.RelationalStore

open Database

instance : LawfulStore RelationalStore where
  missed := by
    intro e s after answered
    obtain ⟨rfl, found⟩ := writeWhere_ok answered
    rw [Store.updateFirst_of_not_found _ _ _ found.symm]

def executionRow (db : Database) (id : EntityId) : Option ExecutionRow :=
  db.executions.find? fun r => r.metricId = id.text

/-- The store is open, its keys are unique, and the execution of the metric can be read. -/
def Ready (id : EntityId) (s : RelationalStore) : Prop :=
  s.closed = false ∧ UniqueKeys s.database ∧
    ∃ r e, executionRow s.database id = some r ∧ r.toExecution = .ok e

def writeExecution (e : MetricExecution) (db : Database) : Database :=
  { db with
    executions :=
      (Store.updateFirst (fun r : ExecutionRow => r.id = e.id.text)
        (fun r => { r with lastValue := Column.numberText e.lastValue, status := e.status.name })
        db.executions).2 }

theorem executionRow_writeExecution {db : Database} (keys : UniqueKeys db)
    (e : MetricExecution) {id : EntityId} {r : ExecutionRow}
    (found : executionRow db id = some r) (other : r.id ≠ e.id.text) :
    executionRow (writeExecution e db) id = some r := by
  have rows := Store.updateFirst_of_nodup ExecutionRow.id e.id.text
    (fun r => { r with lastValue := Column.numberText e.lastValue, status := e.status.name })
    db.executions keys.executionIds
  unfold executionRow writeExecution at *
  simp only
  rw [rows, List.find?_map]
  have search : ((fun r : ExecutionRow => decide (r.metricId = id.text)) ∘ fun row =>
      if row.id = e.id.text then
        { row with lastValue := Column.numberText e.lastValue, status := e.status.name }
      else row) = fun r => decide (r.metricId = id.text) := by
    funext row
    simp only [Function.comp_apply]
    split <;> rfl
  rw [search, found, Option.map_some, if_neg other]

theorem writeExecution_uniqueKeys {db : Database} (keys : UniqueKeys db)
    (e : MetricExecution) : UniqueKeys (writeExecution e db) := by
  refine keys.sublist (List.Sublist.refl _) ?_
  have same : (writeExecution e db).executions.map ExecutionRow.keys =
      db.executions.map ExecutionRow.keys := by
    apply Store.map_updateFirst
    intro row
    rfl
  rw [same]

theorem findMetricExecution_of_row {s : RelationalStore} {id : EntityId} {r : ExecutionRow}
    {e : MetricExecution} (opened : s.closed = false)
    (found : executionRow s.database id = some r) (read : r.toExecution = .ok e) :
    Store.findMetricExecution id s = .ok (some e) := by
  refine (whenOpen_of_open _ opened).trans ?_
  unfold executionRow at found
  rw [found]
  simp only
  rw [read]
  rfl

theorem record_of_row {policy : TransitionPolicy} {m : Metric} {value : Binary64}
    {world : World RelationalStore} {r : ExecutionRow} {e : MetricExecution}
    (opened : world.store.closed = false) (keys : UniqueKeys world.store.database)
    (found : executionRow world.store.database m.id = some r) (read : r.toExecution = .ok e) :
    Tracker.record policy m value world =
      (.ok (Tracker.afterReading policy m value e),
        { world with
          store :=
            { world.store with
              database :=
                writeExecution (Tracker.afterReading policy m value e)
                  world.store.database } }) := by
  obtain ⟨stored, _⟩ := Store.find_some_key ExecutionRow.metricId found
  have key : r.id = e.id.text :=
    Column.id_text (ExecutionRow.toExecution_id read) (keys.executionTexts r stored)
  have answered := findMetricExecution_of_row opened found read
  have present : (Store.updateFirst
      (fun r : ExecutionRow => r.id = (Tracker.afterReading policy m value e).id.text)
      (fun r => { r with
        lastValue := Column.numberText (Tracker.afterReading policy m value e).lastValue
        status := (Tracker.afterReading policy m value e).status.name })
      world.store.database.executions).1 = true := by
    rw [Store.updateFirst_found]
    exact List.any_eq_true.mpr ⟨r, stored, decide_eq_true key⟩
  have written : Store.updateMetricExecution (Tracker.afterReading policy m value e)
      world.store =
        .ok (true,
          { world.store with
            database :=
              writeExecution (Tracker.afterReading policy m value e)
                world.store.database }) := by
    refine (whenOpen_of_open _ opened).trans ?_
    rw [present]
    rfl
  rw [Tracker.record_apply, answered]
  simp only
  rw [Tracker.update_apply, written]
  rfl

theorem recordable : Recordable Ready := by
  intro policy m value world ready
  obtain ⟨opened, keys, r, e, found, read⟩ := ready
  refine ⟨_, _, record_of_row opened keys found read, ?_⟩
  intro id different others
  obtain ⟨_, _, other, readOther, foundOther, readable⟩ := others
  refine ⟨opened, writeExecution_uniqueKeys keys _, other, readOther, ?_, readable⟩
  apply executionRow_writeExecution keys _ foundOther
  obtain ⟨stored, names⟩ := Store.find_some_key ExecutionRow.metricId found
  obtain ⟨otherStored, otherNames⟩ :=
    Store.find_some_key ExecutionRow.metricId foundOther
  have key : r.id = e.id.text :=
    Column.id_text (ExecutionRow.toExecution_id read) (keys.executionTexts r stored)
  -- Rows are told apart by their texts, and the identifiers by these texts.
  intro same
  have sameRow :=
    List.inj_on_of_nodup_map keys.executionIds otherStored stored (same.trans key.symm)
  apply different
  apply EntityId.text_injective
  rw [← otherNames, ← names, sameRow]

theorem toMetric_ready {db : Database} (keys : UniqueKeys db) {r : MetricRow}
    {row : ExecutionRow} {m : Metric} (stored : r ∈ db.metrics)
    (joined : db.executions.find? (fun e => e.metricId = r.id) = some row)
    (read : r.toMetric row = .ok m) :
    r.id = m.id.text ∧ executionRow db m.id = some row ∧ row.toExecution = .ok m.execution := by
  obtain ⟨readId, readExecution⟩ := MetricRow.toMetric_id read
  have key := Column.id_text readId (keys.metricTexts r stored)
  obtain ⟨_, names⟩ := Store.find_some_key ExecutionRow.metricId joined
  refine ⟨key, ?_, ?_⟩
  · unfold executionRow
    rw [← key]
    exact joined
  · rw [← names] at readExecution
    exact readExecution

/-- The store is open, its keys are unique, and the row of the metric's execution is read as the
execution that the metric has. -/
structure Holds (m : Metric) (s : RelationalStore) : Prop where
  opened : s.closed = false
  keys : UniqueKeys s.database
  row : ∃ r, executionRow s.database m.id = some r ∧ r.toExecution = .ok m.execution

theorem Holds.ready {m : Metric} {s : RelationalStore} (held : Holds m s) : Ready m.id s := by
  obtain ⟨r, found, read⟩ := held.row
  exact ⟨held.opened, held.keys, r, m.execution, found, read⟩

/-- With unique keys the metrics of a group are distinct, and loaded with their executions. -/
theorem holds {s : RelationalStore} (keys : UniqueKeys s.database) {groupId : EntityId}
    {g : MetricsGroup} (loaded : Store.findMetricsGroup groupId s = .ok (some g)) :
    (g.metrics.map Metric.id).Nodup ∧ ∀ m ∈ g.metrics, Holds m s := by
  obtain ⟨opened, result⟩ := whenOpen_ok loaded
  cases read : s.database.readGroups (s.database.groups.filter fun r => r.id = groupId.text) with
  | error fault =>
      rw [read] at result
      cases result
  | ok groups =>
      rw [read] at result
      obtain ⟨_, readMetrics⟩ := readGroups_head read (Except.ok.inj result)
      obtain ⟨rows, distinct, stored, pairs⟩ := metricsOf_rows keys.metricIds readMetrics
      have readRows : List.Forall₂ (fun row m => row.1.id = m.id.text ∧ Holds m s) rows
          g.metrics := by
        refine ((List.forall₂_and_left _ _).mpr ⟨stored, pairs⟩).imp ?_
        rintro ⟨r, row⟩ m ⟨⟨present, joined⟩, readMetric⟩
        obtain ⟨key, found, readable⟩ := toMetric_ready keys present joined readMetric
        exact ⟨key, { opened, keys, row := ⟨row, found, readable⟩ }⟩
      constructor
      · have texts : rows.map (fun row => row.1.id) = g.metrics.map fun m => m.id.text := by
          rw [← List.forall₂_eq_eq_eq, List.forall₂_map_left_iff, List.forall₂_map_right_iff]
          exact readRows.imp fun _ _ both => both.1
        rw [texts] at distinct
        apply List.Nodup.of_map EntityId.text
        rw [List.map_map]
        exact distinct
      · intro m member
        obtain ⟨row, _, both⟩ := Parsed.exists_source readRows member
        exact both.2

/-- With unique keys the metrics of a group are distinct and their executions can be read. -/
theorem loads {s : RelationalStore} (keys : UniqueKeys s.database) {groupId : EntityId}
    {g : MetricsGroup} (loaded : Store.findMetricsGroup groupId s = .ok (some g)) :
    (g.metrics.map Metric.id).Nodup ∧ ∀ m ∈ g.metrics, Ready m.id s := by
  obtain ⟨distinct, held⟩ := holds keys loaded
  exact ⟨distinct, fun m member => (held m member).ready⟩

end RolloutWatch.RelationalStore

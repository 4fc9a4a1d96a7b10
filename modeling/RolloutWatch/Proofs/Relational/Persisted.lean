import RolloutWatch.Proofs.Relational.Creation
import RolloutWatch.Proofs.Relational.Effect
import RolloutWatch.Proofs.Relational.Runs
import RolloutWatch.Proofs.Service.Persisted

/-!
Executions in the relational store. An update writes two columns of one row, whether the row can
be read or not, and what is read from the row is then the execution in its new state. A row can be
read if its execution has been created in a common year.
-/

namespace RolloutWatch

namespace Parsed

variable {α β : Type} {f : α → Parsed β} {items : List α} {values : List β}

theorem exists_value (read : items.mapM f = .ok values) {item : α} (member : item ∈ items) :
    ∃ value ∈ values, f item = .ok value :=
  exists_source (mapM_ok read).flip member

theorem mem_values_iff (read : items.mapM f = .ok values) (value : β) :
    value ∈ values ↔ ∃ item ∈ items, f item = .ok value := by
  constructor
  · exact exists_source (mapM_ok read)
  · rintro ⟨item, member, same⟩
    obtain ⟨other, present, found⟩ := exists_value read member
    cases same.symm.trans found
    exact present

end Parsed

namespace ExecutionRow

def restated (e : MetricExecution) (row : ExecutionRow) : ExecutionRow :=
  if row.id = e.id.text then
    { row with lastValue := Column.numberText e.lastValue, status := e.status.name }
  else row

theorem ofExecution_reads (metricId : EntityId) (e : MetricExecution) :
    (ofExecution metricId e).toExecution =
      (Column.instant (Column.instantText e.createdAt)).map fun createdAt =>
        { e.settled with metricId, createdAt } := by
  unfold toExecution ofExecution
  simp only [Column.id_idText, Column.number_numberText, Column.status_name]
  cases Column.instant (Column.instantText e.createdAt) <;> rfl

theorem restated_ofExecution (e : MetricExecution) (metricId : EntityId) (x : MetricExecution) :
    restated e (ofExecution metricId x) = ofExecution metricId (MetricExecution.restated e x) := by
  unfold restated MetricExecution.restated
  by_cases same : x.id = e.id
  · rw [if_pos same]
    exact if_pos (congrArg EntityId.text same)
  · rw [if_neg same]
    exact if_neg fun texts => same (EntityId.text_injective texts)

/-- A row that has been written for an execution is read as the execution in its new state. -/
theorem toExecution_restated {row : ExecutionRow} (written : ∃ id x, row = ofExecution id x)
    (e : MetricExecution) :
    (restated e row).toExecution =
      row.toExecution.map (MetricExecution.restated (e.readBack Binary64.settled)) := by
  obtain ⟨metricId, x, rfl⟩ := written
  rw [restated_ofExecution, ofExecution_reads, ofExecution_reads,
    MetricExecution.restated_createdAt]
  cases Column.instant (Column.instantText x.createdAt) with
  | error fault => rfl
  | ok createdAt =>
      refine congrArg Except.ok ?_
      unfold MetricExecution.restated
      by_cases same : x.id = e.id
      · rw [if_pos same]
        exact (if_pos same).symm
      · rw [if_neg same]
        exact (if_neg same).symm

theorem metricId_text {row : ExecutionRow} (written : ∃ id x, row = ofExecution id x)
    {e : MetricExecution} (read : row.toExecution = .ok e) : row.metricId = e.metricId.text := by
  obtain ⟨id, x, rfl⟩ := written
  exact Column.id_text (toExecution_metricId read) ⟨id, rfl⟩

theorem id_text {row : ExecutionRow} (written : ∃ id x, row = ofExecution id x)
    {e : MetricExecution} (read : row.toExecution = .ok e) : row.id = e.id.text := by
  obtain ⟨id, x, rfl⟩ := written
  exact Column.id_text (toExecution_id read) ⟨x.id, rfl⟩

end ExecutionRow

namespace RelationalStore

open Database

theorem listMetricExecutions_ok_iff {s : RelationalStore} {all : List MetricExecution} :
    Store.listMetricExecutions s = .ok all ↔
      s.closed = false ∧
        (s.database.executions.mergeSort fun a b => a.createdAt ≤ b.createdAt).mapM
          ExecutionRow.toExecution = .ok all := by
  constructor
  · intro listed
    obtain ⟨opened, result⟩ := whenOpen_ok listed
    refine ⟨opened, ?_⟩
    cases read : (s.database.executions.mergeSort fun a b => a.createdAt ≤ b.createdAt).mapM
        ExecutionRow.toExecution with
    | error fault =>
        rw [read] at result
        cases result
    | ok rows =>
        rw [read] at result
        cases result
        rfl
  · rintro ⟨opened, read⟩
    refine (whenOpen_of_open _ opened).trans ?_
    rw [read]
    rfl

theorem mem_listed_iff {s : RelationalStore} {all : List MetricExecution}
    (listed : Store.listMetricExecutions s = .ok all) (e : MetricExecution) :
    e ∈ all ↔ ∃ row ∈ s.database.executions, row.toExecution = .ok e := by
  obtain ⟨-, read⟩ := listMetricExecutions_ok_iff.mp listed
  rw [Parsed.mem_values_iff read]
  have perm := List.mergeSort_perm s.database.executions fun a b => a.createdAt ≤ b.createdAt
  exact exists_congr fun row => and_congr_left' perm.mem_iff

theorem findMetricExecution_some {s : RelationalStore} {id : EntityId} {e : MetricExecution}
    (found : Store.findMetricExecution id s = .ok (some e)) :
    ∃ row ∈ s.database.executions, row.toExecution = .ok e := by
  obtain ⟨-, result⟩ := whenOpen_ok found
  cases first : s.database.executions.find? fun r => r.metricId = id.text with
  | none =>
      rw [first] at result
      cases result
  | some row =>
      rw [first] at result
      cases read : row.toExecution with
      | error fault =>
          simp only [read] at result
          cases result
      | ok other =>
          simp only [read] at result
          cases result
          exact ⟨row, List.mem_of_find?_eq_some first, read⟩

theorem findMetricExecution_of_mem {s : RelationalStore} (opened : s.closed = false)
    (keys : UniqueKeys s.database) (formed : WellFormed s.database) {row : ExecutionRow}
    (stored : row ∈ s.database.executions) {e : MetricExecution}
    (read : row.toExecution = .ok e) :
    Store.findMetricExecution e.metricId s = .ok (some e) := by
  have names := ExecutionRow.metricId_text (formed.executions row stored) read
  obtain ⟨first, found⟩ := Store.exists_find_of_mem_keys ExecutionRow.metricId e.metricId.text
    s.database.executions (names ▸ List.mem_map_of_mem stored)
  obtain ⟨present, same⟩ := Store.find_some_key ExecutionRow.metricId found
  have equal : first = row :=
    List.inj_on_of_nodup_map keys.executionMetrics present stored (same.trans names.symm)
  exact findMetricExecution_of_row opened found (equal ▸ read)

theorem updateMetricExecution_ok {s after : RelationalStore} (keys : UniqueKeys s.database)
    {e : MetricExecution} {found : Bool}
    (written : Store.updateMetricExecution e s = .ok (found, after)) :
    after = s.mapExecutionRows (ExecutionRow.restated e) ∧
      found = s.database.executions.any fun row => row.id = e.id.text := by
  obtain ⟨rfl, present⟩ := writeWhere_ok written
  rw [Store.updateFirst_found] at present
  rw [Store.updateFirst_of_nodup ExecutionRow.id e.id.text _ _ keys.executionIds]
  exact ⟨rfl, present⟩

theorem keepsState {s : RelationalStore} (keys : UniqueKeys s.database)
    (formed : WellFormed s.database) : Tracker.KeepsState Binary64.settled s where
  names := findMetricExecution_names
  listed_iff := by
    intro all listed e
    rw [mem_listed_iff listed]
    constructor
    · rintro ⟨row, stored, read⟩
      exact findMetricExecution_of_mem (listMetricExecutions_ok_iff.mp listed).1 keys formed
        stored read
    · exact findMetricExecution_some
  ids := by
    intro all listed a member b otherMember same
    obtain ⟨row, stored, read⟩ := (mem_listed_iff listed a).mp member
    obtain ⟨other, otherStored, otherRead⟩ := (mem_listed_iff listed b).mp otherMember
    have id := ExecutionRow.id_text (formed.executions row stored) read
    have otherId := ExecutionRow.id_text (formed.executions other otherStored) otherRead
    have equal : row = other := List.inj_on_of_nodup_map keys.executionIds stored otherStored
      (by rw [id, otherId, same])
    rw [equal] at read
    cases read.symm.trans otherRead
    rfl
  updated := by
    intro e found after written
    obtain ⟨rfl, -⟩ := updateMetricExecution_ok keys written
    apply answersThrough
    refine { owner := ?_, created := ?_, reads := ?_ }
    · intro row
      unfold ExecutionRow.restated
      split <;> rfl
    · intro row
      unfold ExecutionRow.restated
      split <;> rfl
    · intro row stored
      exact ExecutionRow.toExecution_restated (formed.executions row stored) e
  present := by
    intro e after all written listed
    obtain ⟨-, present⟩ := updateMetricExecution_ok keys written
    obtain ⟨row, stored, same⟩ := List.any_eq_true.mp present.symm
    obtain ⟨-, readAll⟩ := listMetricExecutions_ok_iff.mp listed
    have sorted : row ∈ s.database.executions.mergeSort fun a b => a.createdAt ≤ b.createdAt :=
      (List.mergeSort_perm _ _).mem_iff.mpr stored
    obtain ⟨x, member, read⟩ := Parsed.exists_value readAll sorted
    have key := ExecutionRow.id_text (formed.executions row stored) read
    exact ⟨x, member, EntityId.text_injective (key.symm.trans (of_decide_eq_true same))⟩

/-! ### Times of creation -/

/-- Connections to a database that only the services have written to, with a clock that showed
common years all along. -/
inductive Dated : RelationalStore → Prop where
  | created : Dated (onDatabase .empty)
  | next {s : RelationalStore} (turn : Turn) (common : turn.InCommonYears) (dated : Dated s) :
      Dated (turn.next s)
  | reopened {s : RelationalStore} (dated : Dated s) : Dated (onDatabase s.database)

theorem Dated.reachable {s : RelationalStore} (dated : Dated s) : Reachable s := by
  induction dated with
  | created => exact .created
  | next turn common dated ih => exact .next turn ih
  | reopened dated ih => exact .reopened ih

def ExecutionsDated (db : Database) : Prop :=
  ∀ r ∈ db.executions, CommonTime r.createdAt

theorem ExecutionsDated.addMetrics {db : Database} (dated : ExecutionsDated db)
    {ms : List Metric} (common : ∀ m ∈ ms, m.execution.createdAt.InCommonYears) :
    ExecutionsDated (db.addMetrics ms) := by
  intro r member
  rcases List.mem_append.mp member with stored | added
  · exact dated r stored
  · obtain ⟨m, new, rfl⟩ := List.mem_map.mp added
    exact ⟨_, common m new, rfl⟩

theorem executionWrites_times {s after : RelationalStore} (written : ExecutionWrites s after)
    (dated : ExecutionsDated s.database) : ExecutionsDated after.database := by
  induction written with
  | refl => exact dated
  | tail earlier last ih =>
      obtain ⟨e, found, updated⟩ := last
      obtain ⟨rfl, -⟩ := writeWhere_ok updated
      exact Store.forall_updateFirst ih fun _ common => common

theorem ExecutionsDated.change {s after : RelationalStore} {turn : Turn}
    (dated : ExecutionsDated s.database) (common : turn.InCommonYears)
    (change : Change turn s after) : ExecutionsDated after.database := by
  have tables := tablesChange change
  generalize after.database = database at tables ⊢
  cases tables with
  | kept => exact dated
  | sourcesWritten called sources => exact dated
  | groupAdded g checked anew =>
      have grouped : ExecutionsDated
          { s.database with
            groups := s.database.groups ++ [.ofGroup (Groups.prepare g turn.supply).1] } := dated
      exact grouped.addMetrics fun m member =>
        common _ (Groups.prepare_startsAnew g turn.supply m member).createdAt
  | groupUpdated id u checked => exact dated
  | groupDeleted id => exact fun r member => dated r (List.mem_of_mem_filter member)
  | metricAdded m checked groupId circleId owned adopts =>
      exact dated.addMetrics (List.forall_mem_singleton.mpr
        (common _ (MetricsGroup.adoptMetric_startsAnew groupId circleId m turn.supply).createdAt))
  | metricUpdated m checked called opened => exact dated
  | metricRemoved id called opened => exact fun r member => dated r (List.mem_of_mem_filter member)
  | executionsWritten executions written => exact executionWrites_times written dated

theorem Dated.executions {s : RelationalStore} (dated : Dated s) : ExecutionsDated s.database := by
  induction dated with
  | created => exact fun _ member => absurd member List.not_mem_nil
  | next turn common dated ih => exact ih.change common (turn.change _)
  | reopened dated ih => exact ih

theorem Dated.readable {world : World RelationalStore} (dated : Dated world.store)
    (opened : world.store.closed = false) : Tracker.Readable world := by
  have each : ∀ row ∈ world.store.database.executions.mergeSort
      (fun a b => a.createdAt ≤ b.createdAt), ∃ e, row.toExecution = .ok e := by
    intro row member
    have stored := (List.mergeSort_perm _ _).mem_iff.mp member
    obtain ⟨metricId, x, rfl⟩ := dated.reachable.wellFormed.executions row stored
    obtain ⟨t, common, time⟩ := dated.executions _ stored
    have read : Column.instant (Column.instantText x.createdAt) = .ok t := by
      rw [show Column.instantText x.createdAt = Column.instantText t from time]
      exact Column.instant_instantText common
    rw [ExecutionRow.ofExecution_reads, read]
    exact ⟨_, rfl⟩
  obtain ⟨all, read⟩ := Parsed.mapM_exists each
  exact ⟨all, Tracker.findAll_ok_iff.mpr (listMetricExecutions_ok_iff.mpr ⟨opened, read⟩)⟩

end RelationalStore

end RolloutWatch

import RolloutWatch.Proofs.Relational.Reading
import RolloutWatch.Proofs.Service.Validity
import RolloutWatch.Proofs.Store.Roster

/-!
The rows of groups and metrics in the relational store as its turns change them, and the groups
that are read from them. A metric is read together with its execution, so that a group with rows
of metrics is read with metrics because each of them has an execution.
-/

namespace RolloutWatch

/-! ### What is read from rows that are in order -/

/-- The row has been written for a group with a name and a circle. -/
def GroupRow.Titled (r : GroupRow) : Prop :=
  ∃ g : MetricsGroup, r = .ofGroup g ∧ g.Titled

def MetricRow.Valid (r : MetricRow) : Prop :=
  ∃ m : Metric, r = .ofMetric m ∧ m.violations.isEmpty = true

theorem GroupRow.Titled.read {r : GroupRow} (titled : r.Titled) {metrics : List Metric}
    {g : MetricsGroup} (read : r.toGroup metrics = .ok g) : g.Titled := by
  obtain ⟨written, rfl, name, circle⟩ := titled
  unfold toGroup at read
  obtain ⟨id, -, rest⟩ := Parsed.bind_ok read
  obtain ⟨workspaceId, -, rest⟩ := Parsed.bind_ok rest
  obtain ⟨circleId, readCircle, rest⟩ := Parsed.bind_ok rest
  obtain ⟨createdAt, -, rest⟩ := Parsed.bind_ok rest
  cases rest
  cases (Column.id_idText "circle_id" written.circleId).symm.trans readCircle
  exact ⟨name, circle⟩

/-- A finite threshold is read back as it is, and so are the other fields that are checked. -/
theorem MetricRow.Valid.read {r : MetricRow} (valid : r.Valid) {e : ExecutionRow} {m : Metric}
    (read : r.toMetric e = .ok m) : m.violations.isEmpty = true := by
  obtain ⟨written, rfl, checked⟩ := valid
  have finite : written.threshold.isFinite = true := by
    rw [Metric.isEmpty_violations, Bool.and_eq_true] at checked
    exact checked.2
  have settled := Binary64.settled_of_not_isNaN (Binary64.isNaN_of_finite finite)
  unfold toMetric at read
  obtain ⟨id, -, rest⟩ := Parsed.bind_ok read
  obtain ⟨filters, -, rest⟩ := Parsed.bind_ok rest
  obtain ⟨groupBy, -, rest⟩ := Parsed.bind_ok rest
  obtain ⟨metricsGroupId, -, rest⟩ := Parsed.bind_ok rest
  obtain ⟨dataSourceId, readSource, rest⟩ := Parsed.bind_ok rest
  obtain ⟨condition, readCondition, rest⟩ := Parsed.bind_ok rest
  obtain ⟨threshold, readThreshold, rest⟩ := Parsed.bind_ok rest
  obtain ⟨circleId, -, rest⟩ := Parsed.bind_ok rest
  obtain ⟨execution, -, rest⟩ := Parsed.bind_ok rest
  obtain ⟨createdAt, -, rest⟩ := Parsed.bind_ok rest
  cases rest
  cases (Column.id_idText "data_source_id" written.dataSourceId).symm.trans readSource
  cases (Column.condition_conditionText written.condition).symm.trans readCondition
  cases (Column.number_numberText "threshold" written.threshold).symm.trans readThreshold
  rw [settled]
  exact checked

namespace Database

def Joined (db : Database) : Prop :=
  ∀ r ∈ db.metrics, r.id ∈ db.executions.map ExecutionRow.metricId

theorem joined_iff {db : Database} :
    Joined db ↔ db.metrics.map MetricRow.id ⊆ db.executions.map ExecutionRow.metricId :=
  List.forall_mem_map.symm

theorem Joined.metricsOf_ne_nil {db : Database} (joined : Joined db) {r : MetricRow}
    (stored : r ∈ db.metrics) {metrics : List Metric}
    (read : db.metricsOf r.metricsGroupId = .ok metrics) : metrics ≠ [] := by
  obtain ⟨e, found⟩ :=
    Store.exists_find_of_mem_keys ExecutionRow.metricId r.id _ (joined r stored)
  have own : r ∈ db.metrics.filter fun other => other.metricsGroupId = r.metricsGroupId :=
    List.mem_filter.mpr ⟨stored, decide_eq_true rfl⟩
  have row : (r, e) ∈ (db.metrics.filter fun other =>
      other.metricsGroupId = r.metricsGroupId).filterMap db.join := by
    refine List.mem_filterMap.mpr ⟨r, own, ?_⟩
    unfold join
    rw [found]
    rfl
  have pairs := Parsed.mapM_ok read
  rintro rfl
  have none := List.forall₂_nil_right_iff.mp pairs
  have member := (List.mergeSort_perm _ fun a b => a.1.createdAt ≤ b.1.createdAt).symm.subset row
  rw [none] at member
  cases member

/-- The keys of metrics and of the executions that belong to metrics, after a step at which both
keep the same ones and gain the same ones. -/
def KeysStep (kept : String → Bool) (new : List String) (db after : Database) : Prop :=
  after.metrics.map MetricRow.id = (db.metrics.map MetricRow.id).filter kept ++ new ∧
    after.executions.map ExecutionRow.metricId =
      (db.executions.map ExecutionRow.metricId).filter kept ++ new

theorem keysStep_of_same {db after : Database}
    (metrics : after.metrics.map MetricRow.id = db.metrics.map MetricRow.id)
    (executions : after.executions.map ExecutionRow.metricId =
      db.executions.map ExecutionRow.metricId) : KeysStep (fun _ => true) [] db after := by
  unfold KeysStep
  rw [List.filter_true, List.filter_true, List.append_nil, List.append_nil]
  exact ⟨metrics, executions⟩

theorem keysStep_addMetrics (db : Database) (ms : List Metric) :
    KeysStep (fun _ => true) (ms.map fun m => m.id.text) db (db.addMetrics ms) := by
  unfold KeysStep addMetrics
  rw [List.filter_true, List.filter_true, List.map_append, List.map_append, List.map_map,
    List.map_map]
  exact ⟨rfl, rfl⟩

/-- Metrics are known by their keys, so that no other metric loses its execution. -/
theorem keysStep_removeMetrics {db : Database} (distinct : (db.metrics.map MetricRow.id).Nodup)
    (gone : MetricRow → Bool) :
    KeysStep (fun key => !((db.metrics.filter gone).map MetricRow.id).contains key) [] db
      (RelationalStore.removeMetrics gone db) := by
  unfold KeysStep
  rw [List.append_nil, List.append_nil, List.filter_map, List.filter_map]
  refine ⟨congrArg (List.map MetricRow.id) (List.filter_congr fun r stored => ?_), rfl⟩
  refine congrArg not (Bool.eq_iff_iff.mpr (Iff.symm ?_))
  exact List.contains_iff_mem.trans (Store.mem_keys_filter MetricRow.id distinct stored gone)

theorem keys_subset {before others : List String} (within : before ⊆ others)
    (kept : String → Bool) (new : List String) :
    before.filter kept ++ new ⊆ others.filter kept ++ new :=
  List.append_subset.mpr
    ⟨List.subset_append_of_subset_left _ (List.filter_subset kept within),
      List.subset_append_right _ _⟩

theorem readGroup_parts {db : Database} (distinct : (db.metrics.map MetricRow.id).Nodup)
    (metrics : ∀ r ∈ db.metrics, r.Valid) {r : GroupRow} (titled : r.Titled) {g : MetricsGroup}
    (read : db.readGroup r = .ok g) :
    g.Titled ∧ ∀ m ∈ g.metrics, m.violations.isEmpty = true := by
  obtain ⟨bare, readBare, ms, readMetrics, rfl⟩ := readGroup_ok.mp read
  have bareTitled := titled.read readBare
  refine ⟨⟨bareTitled.name, bareTitled.circle⟩, ?_⟩
  obtain ⟨rows, -, stored, pairs⟩ := metricsOf_rows distinct readMetrics
  intro m member
  obtain ⟨row, present, readRow⟩ := Parsed.exists_source pairs member
  exact (metrics row.1 (stored row present).1).read readRow

end Database

namespace RelationalStore

open Database

def kinds : RowKinds GroupRow MetricRow String :=
  { groupKey := GroupRow.id
    metricKey := MetricRow.id
    owner := MetricRow.metricsGroupId
    titled := GroupRow.Titled
    valid := MetricRow.Valid }

def roster (s : RelationalStore) : Roster GroupRow MetricRow :=
  { groups := s.database.groups, metrics := s.database.metrics }

/-- The turn asks for the metric with this key to be removed from an open store. -/
def Removable (turn : Turn) (s : RelationalStore) (key : String) : Prop :=
  ∃ id : EntityId, key = id.text ∧ turn.call = .removeMetric id ∧ s.closed = false

/-! ### One turn -/

private theorem rosterStep_of_groupAdded {turn : Turn} {s : RelationalStore} {g : MetricsGroup}
    (checked : g.violations.isEmpty = true) :
    Roster.Step kinds (Removable turn s) s.roster
      { groups := s.database.groups ++ [.ofGroup (Groups.prepare g turn.supply).1]
        metrics := s.database.metrics ++
          (Groups.prepare g turn.supply).1.metrics.map .ofMetric } := by
  obtain ⟨titled, nonempty, valid⟩ := MetricsGroup.valid_iff.mp checked
  refine .groupAdded _ _ ⟨_, rfl, titled.name, titled.circle⟩ ?_ ?_ ?_
  · intro r added
    obtain ⟨m, member, rfl⟩ := List.mem_map.mp added
    exact ⟨m, rfl, Groups.prepare_valid valid member⟩
  · intro r added
    obtain ⟨m, member, rfl⟩ := List.mem_map.mp added
    exact congrArg EntityId.text (Groups.prepare_startsAnew g turn.supply m member).group
  · rw [ne_eq, List.map_eq_nil_iff]
    exact Groups.prepare_nonempty nonempty

theorem rosterStep {turn : Turn} {s after : RelationalStore} (change : Change turn s after) :
    Roster.Step kinds (Removable turn s) s.roster after.roster := by
  have tables := tablesChange change
  unfold roster at *
  generalize after.database = database at tables ⊢
  cases tables with
  | kept => exact .kept
  | sourcesWritten called sources => exact .kept
  | groupAdded g checked anew => exact rosterStep_of_groupAdded checked
  | groupUpdated id u checked =>
      obtain ⟨name, circle⟩ := MetricsGroupUpdate.valid_iff.mp checked
      refine .groupUpdated _ _ (fun _ => rfl) ?_
      rintro r ⟨g, rfl, -⟩
      exact ⟨{ g with name := u.name, circleId := u.circleId }, rfl, name, circle⟩
  | groupDeleted id =>
      refine .groupRemoved id.text (fun r => ?_) fun r => ?_
      · exact List.mem_filter.trans (and_congr_right fun _ => decide_eq_true_iff)
      · refine List.mem_filter.trans (and_congr_right fun _ => ?_)
        rw [Bool.not_eq_true', decide_eq_false_iff_not]
        rfl
  | metricAdded m checked groupId circleId owned adopts => exact .metricAdded _ ⟨_, rfl, checked⟩
  | metricUpdated m checked called opened =>
      refine .metricUpdated _ _ (fun _ => rfl) ?_
      rintro r ⟨row, rfl, -⟩
      exact ⟨row.withDefinitionOf m, rfl, checked⟩
  | metricRemoved id called opened =>
      refine .metricRemoved id.text ⟨id, rfl, called, opened⟩ rfl fun r => ?_
      exact List.mem_filter.trans (and_congr_right fun _ => decide_eq_true_iff)
  | executionsWritten executions written => exact .kept

/-- Metrics and executions come and go together: their keys lose and gain the same ones. -/
theorem keysStep {turn : Turn} {s after : RelationalStore} (keys : UniqueKeys s.database)
    (change : Change turn s after) :
    ∃ kept new, KeysStep kept new s.database after.database := by
  have tables := tablesChange change
  generalize after.database = database at tables ⊢
  cases tables with
  | groupAdded g checked anew => exact ⟨_, _, keysStep_addMetrics s.database _⟩
  | metricAdded m checked groupId circleId owned adopts =>
      exact ⟨_, _, keysStep_addMetrics s.database _⟩
  | groupDeleted id => exact ⟨_, _, keysStep_removeMetrics keys.metricIds _⟩
  | metricRemoved id called opened =>
      refine ⟨fun key => key ≠ id.text, [], ?_, ?_⟩
      all_goals
        rw [List.append_nil, List.filter_map]
        rfl
  | metricUpdated m checked called opened =>
      refine ⟨_, _, keysStep_of_same ?_ rfl⟩
      apply Store.map_updateFirst
      intro row
      rfl
  | executionsWritten executions written =>
      obtain ⟨-, executions⟩ := executionWrites_keys written
      have owners := congrArg (List.map Prod.snd) executions
      rw [List.map_map, List.map_map] at owners
      exact ⟨_, _, keysStep_of_same rfl owners⟩
  | _ => exact ⟨_, _, keysStep_of_same rfl rfl⟩

/-- No turn leaves a metric without an execution. -/
theorem joined_change {turn : Turn} {s after : RelationalStore} (keys : UniqueKeys s.database)
    (joined : Joined s.database) (change : Change turn s after) : Joined after.database := by
  obtain ⟨kept, new, metrics, executions⟩ := keysStep keys change
  rw [joined_iff, metrics, executions]
  exact keys_subset (joined_iff.mp joined) kept new

/-! ### Runs -/

/-- The turn removes the only metric of a group. -/
def RemovesOnly (turn : Turn) (s : RelationalStore) : Prop :=
  ∃ key, Removable turn s key ∧ s.roster.Only kinds key

structure Orderly (s : RelationalStore) : Prop where
  keys : UniqueKeys s.database
  sound : s.roster.Sound kinds

theorem Orderly.next {s : RelationalStore} (turn : Turn) (orderly : Orderly s) :
    Orderly (turn.next s) :=
  { keys := uniqueKeys_change orderly.keys (turn.change s)
    sound := orderly.sound.step (rosterStep (turn.change s)) }

theorem returned_row {g : MetricsGroup} {s : RelationalStore} (returned : Groups.Returned g s) :
    ∃ r ∈ s.database.groups, s.database.readGroup r = .ok g := by
  rcases Groups.returned_cases returned with ⟨id, found⟩ | ⟨gs, listed, member⟩
  · exact (findMetricsGroup_ok found).2
  · obtain ⟨-, read⟩ := listMetricsGroups_ok.mp listed
    obtain ⟨r, chosen, readRow⟩ := Parsed.exists_source (Parsed.mapM_ok read) member
    exact ⟨r, (List.mergeSort_perm _ _).subset chosen, readRow⟩

theorem Orderly.parts {g : MetricsGroup} {s : RelationalStore} (orderly : Orderly s)
    (returned : Groups.Returned g s) :
    g.Titled ∧ ∀ m ∈ g.metrics, m.violations.isEmpty = true := by
  obtain ⟨r, stored, read⟩ := returned_row returned
  exact readGroup_parts orderly.keys.metricIds orderly.sound.metrics
    (orderly.sound.groups r stored) read

theorem Orderly.partsValid {s : RelationalStore} (orderly : Orderly s) : Groups.PartsValid s :=
  Groups.partsValid_of_parts fun _ => orderly.parts

structure Complete (s : RelationalStore) : Prop extends Orderly s where
  joined : Joined s.database
  populated : s.roster.Populated kinds

theorem Complete.next {turn : Turn} {s : RelationalStore} (complete : Complete s)
    (spared : ¬RemovesOnly turn s) : Complete (turn.next s) :=
  { complete.toOrderly.next turn with
    joined := joined_change complete.keys complete.joined (turn.change s)
    populated := complete.populated.step complete.keys.metricIds
      (fun key removable only => spared ⟨key, removable, only⟩) (rosterStep (turn.change s)) }

theorem Complete.allValid {s : RelationalStore} (complete : Complete s) : Groups.AllValid s := by
  intro g returned
  obtain ⟨titled, metrics⟩ := complete.toOrderly.parts returned
  refine MetricsGroup.valid_iff.mpr ⟨titled, ?_, metrics⟩
  obtain ⟨r, stored, read⟩ := returned_row returned
  obtain ⟨bare, readBare, ms, readMetrics, rfl⟩ := readGroup_ok.mp read
  obtain ⟨row, present, owns⟩ := List.mem_map.mp (complete.populated _ (List.mem_map_of_mem stored))
  obtain ⟨written, rfl, -⟩ := complete.sound.groups r stored
  have own : row.metricsGroupId = bare.id.text :=
    owns.trans (Column.id_text (toGroup_id readBare) ⟨written.id, rfl⟩)
  exact complete.joined.metricsOf_ne_nil present (own ▸ readMetrics)

theorem created_complete : Complete (onDatabase .empty) :=
  { keys := empty_uniqueKeys
    sound := Roster.sound_nil
    joined := fun _ member => absurd member List.not_mem_nil
    populated := Roster.populated_nil }

/-- Whatever the services do, the parts of the groups that they return are valid. -/
theorem run_partsValid (turns : List Turn) :
    Groups.PartsValid (Turn.run turns (onDatabase .empty)) :=
  (Turn.invariant_run (fun turn s => Orderly.next (s := s) turn) turns
    created_complete.toOrderly).partsValid

end RelationalStore

end RolloutWatch

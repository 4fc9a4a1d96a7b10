import RolloutWatch.Proofs.Relational.Codec
import RolloutWatch.Proofs.Relational.Tables
import RolloutWatch.Proofs.Time.Order

/-!
How groups are read from well-formed tables. A group is read from its own row and from the
rows of its metrics. A group that is added is read back, with its metrics in the order of their
times, and the other groups are read from the larger tables as from the smaller ones. Where
all times lie in common years, every group can be read.
-/

namespace RolloutWatch

namespace MetricsGroup

def InCommonYears (g : MetricsGroup) : Prop :=
  g.createdAt.InCommonYears ∧
    ∀ m ∈ g.metrics, m.createdAt.InCommonYears ∧ m.execution.createdAt.InCommonYears

instance (g : MetricsGroup) : Decidable g.InCommonYears :=
  inferInstanceAs (Decidable (_ ∧ _))

/-- The group with its metrics ordered by their times of creation. Metrics of one time stay in
the order in which they stand. -/
def inTimeOrder (g : MetricsGroup) : MetricsGroup :=
  { g with metrics := g.metrics.mergeSort fun a b => !b.createdAt.before a.createdAt }

theorem inTimeOrder_eq_self {g : MetricsGroup} :
    g.inTimeOrder = g ↔
      g.metrics.Pairwise fun a b => b.createdAt.before a.createdAt = false := by
  constructor
  · intro same
    have sorted := (notLater_comparesBy Metric.createdAt).pairwise_mergeSort g.metrics
    have metrics : g.metrics.mergeSort (notLater Metric.createdAt) = g.metrics :=
      congrArg MetricsGroup.metrics same
    rw [metrics] at sorted
    exact sorted.imp fun later => (Bool.not_eq_true' _).mp later
  · intro ordered
    unfold inTimeOrder
    rw [List.mergeSort_of_pairwise]
    exact ordered.imp fun notLater => (Bool.not_eq_true' _).mpr notLater

/-- The metrics belong to the group, their executions to them, and no number is a NaN with a
payload of its own. -/
structure Adopted (g : MetricsGroup) : Prop where
  groups : ∀ m ∈ g.metrics, m.metricsGroupId = g.id
  names : ∀ m ∈ g.metrics, m.execution.metricId = m.id
  settled : ∀ m ∈ g.metrics, m.settled = m

end MetricsGroup

namespace Database

/-- The keys of the group and of its metrics are not taken. -/
structure Admits (db : Database) (g : MetricsGroup) : Prop where
  newGroup : ∀ r ∈ db.groups, r.id ≠ g.id.text
  distinct : (g.metrics.map Metric.id).Nodup
  free : ∀ m ∈ g.metrics, db.Free m

/-! ### One group -/

def readGroup (db : Database) (r : GroupRow) : Parsed MetricsGroup := do
  let g ← r.toGroup []
  let metrics ← db.metricsOf g.id.text
  pure { g with metrics }

theorem readGroup_ok {db : Database} {r : GroupRow} {g : MetricsGroup} :
    db.readGroup r = .ok g ↔
      ∃ bare, r.toGroup [] = .ok bare ∧ ∃ metrics, db.metricsOf bare.id.text = .ok metrics ∧
        g = { bare with metrics } := by
  constructor
  · intro read
    obtain ⟨bare, readBare, rest⟩ := Parsed.bind_ok read
    obtain ⟨metrics, readMetrics, same⟩ := Parsed.bind_ok rest
    cases same
    exact ⟨bare, readBare, metrics, readMetrics, rfl⟩
  · rintro ⟨bare, readBare, metrics, readMetrics, rfl⟩
    unfold readGroup
    rw [readBare]
    change db.metricsOf bare.id.text >>= _ = _
    rw [readMetrics]
    rfl

theorem readGroups_ok {db : Database} {rows : List GroupRow} {gs : List MetricsGroup} :
    db.readGroups rows = .ok gs ↔ rows.mapM db.readGroup = .ok gs := by
  rw [Parsed.mapM_ok_iff]
  constructor
  · intro read
    obtain ⟨bare, readBare, rest⟩ := Parsed.bind_ok read
    have groups := Parsed.mapM_ok readBare
    have metrics := Parsed.mapM_ok rest
    clear read readBare rest
    induction groups generalizing gs with
    | nil =>
        cases metrics
        exact .nil
    | cons first others ih =>
        cases metrics with
        | cons firstMetrics otherMetrics =>
            obtain ⟨ms, readMetrics, same⟩ := Parsed.bind_ok firstMetrics
            cases same
            exact .cons (readGroup_ok.mpr ⟨_, first, ms, readMetrics, rfl⟩) (ih otherMetrics)
  · intro pairs
    obtain ⟨bare, groups, metrics⟩ : ∃ bare,
        List.Forall₂ (fun (r : GroupRow) g => r.toGroup [] = .ok g) rows bare ∧
          List.Forall₂ (fun (h : MetricsGroup) g => (do
            let metrics ← db.metricsOf h.id.text
            pure { h with metrics } : Parsed MetricsGroup) = .ok g) bare gs := by
      induction pairs with
      | nil => exact ⟨[], .nil, .nil⟩
      | cons first others ih =>
          obtain ⟨bare, groups, metrics⟩ := ih
          obtain ⟨h, readBare, ms, readMetrics, rfl⟩ := readGroup_ok.mp first
          refine ⟨h :: bare, .cons readBare groups, .cons ?_ metrics⟩
          rw [readMetrics]
          rfl
    unfold readGroups
    rw [Parsed.mapM_ok_iff.mpr groups]
    exact Parsed.mapM_ok_iff.mpr metrics

theorem toGroup_id {r : GroupRow} {metrics : List Metric} {g : MetricsGroup}
    (read : r.toGroup metrics = .ok g) : Column.id "id" r.id = .ok g.id := by
  unfold GroupRow.toGroup at read
  obtain ⟨id, readId, rest⟩ := Parsed.bind_ok read
  obtain ⟨workspaceId, -, rest⟩ := Parsed.bind_ok rest
  obtain ⟨circleId, -, rest⟩ := Parsed.bind_ok rest
  obtain ⟨createdAt, -, rest⟩ := Parsed.bind_ok rest
  cases rest
  exact readId

theorem WellFormed.groupId_of_read {db : Database} (formed : WellFormed db) {r : GroupRow}
    (stored : r ∈ db.groups) {metrics : List Metric} {g : MetricsGroup}
    (read : r.toGroup metrics = .ok g) : r.id = g.id.text := by
  obtain ⟨source, rfl⟩ := formed.groups r stored
  exact Column.id_text (toGroup_id read) ⟨source.id, rfl⟩

theorem WellFormed.readGroup_id {db : Database} (formed : WellFormed db) {r : GroupRow}
    (stored : r ∈ db.groups) {g : MetricsGroup} (read : db.readGroup r = .ok g) :
    r.id = g.id.text := by
  obtain ⟨bare, readBare, metrics, -, rfl⟩ := readGroup_ok.mp read
  have key := formed.groupId_of_read stored readBare
  exact key

/-! ### A group that is added -/

theorem join_addMetrics_old {db : Database} {ms : List Metric} {r : MetricRow}
    (stored : r ∈ db.metrics) (free : ∀ m ∈ ms, db.Free m) :
    (db.addMetrics ms).join r = db.join r := by
  have absent : (ms.map executionRowFor).find? (fun e => e.metricId = r.id) = none := by
    rw [List.find?_eq_none]
    rintro e added same
    obtain ⟨m, member, rfl⟩ := List.mem_map.mp added
    exact (free m member).metric r stored (of_decide_eq_true same).symm
  unfold join addMetrics
  rw [List.find?_append, absent, Option.or_none]

theorem join_addMetrics_new {db : Database} {ms : List Metric} {m : Metric} (member : m ∈ ms)
    (distinct : (ms.map Metric.id).Nodup) (free : db.Free m) :
    (db.addMetrics ms).join (.ofMetric m) = some (.ofMetric m, executionRowFor m) := by
  have absent : db.executions.find? (fun e => e.metricId = m.id.text) = none := by
    rw [List.find?_eq_none]
    intro e stored same
    exact free.owner e stored (of_decide_eq_true same)
  have wanted : (fun e : ExecutionRow => decide (e.metricId = m.id.text)) ∘ executionRowFor =
      fun other => decide (other.id = m.id) :=
    funext fun other => decide_eq_decide.mpr ⟨fun same => EntityId.text_injective same,
      fun same => congrArg EntityId.text same⟩
  have first : ms.find? (fun other => other.id = m.id) = some m := by
    obtain ⟨other, found⟩ :=
      Store.exists_find_of_mem_keys Metric.id m.id ms (List.mem_map_of_mem member)
    obtain ⟨present, same⟩ := Store.find_some_key Metric.id found
    rw [found, List.inj_on_of_nodup_map distinct present member same]
  unfold join addMetrics
  change ((db.executions ++ ms.map executionRowFor).find? fun e => e.metricId = m.id.text).map _ = _
  rw [List.find?_append, absent, Option.none_or, List.find?_map, wanted, first]
  rfl

theorem metricsOf_addGroup_own {db : Database} {g : MetricsGroup} (formed : WellFormed db)
    (admits : db.Admits g) (adopted : g.Adopted) (common : g.InCommonYears) :
    (db.addGroup g).metricsOf g.id.text = .ok g.inTimeOrder.metrics := by
  have noneBefore : db.metrics.filter (fun r => r.metricsGroupId = g.id.text) = [] := by
    rw [List.filter_eq_nil_iff]
    intro r stored same
    obtain ⟨owner, present, names⟩ := List.mem_map.mp (formed.owners r stored)
    exact admits.newGroup owner present (names.trans (of_decide_eq_true same))
  have allNew : (g.metrics.map MetricRow.ofMetric).filter
      (fun r => r.metricsGroupId = g.id.text) = g.metrics.map .ofMetric := by
    rw [List.filter_eq_self]
    intro r added
    obtain ⟨m, member, rfl⟩ := List.mem_map.mp added
    exact decide_eq_true (congrArg EntityId.text (adopted.groups m member))
  have rows : (db.addGroup g).metrics.filter (fun r => r.metricsGroupId = g.id.text) =
      g.metrics.map .ofMetric := by
    refine (List.filter_append _ _).trans ?_
    rw [noneBefore, allNew, List.nil_append]
  have joined : (g.metrics.map MetricRow.ofMetric).filterMap (db.addGroup g).join =
      g.metrics.map fun m => (MetricRow.ofMetric m, executionRowFor m) := by
    have each : ∀ m ∈ g.metrics, ((db.addGroup g).join ∘ MetricRow.ofMetric) m =
        (some ∘ fun m => (MetricRow.ofMetric m, executionRowFor m)) m :=
      fun m member => join_addMetrics_new member admits.distinct
        { metric := (admits.free m member).metric, owner := (admits.free m member).owner }
    rw [List.filterMap_map, List.filterMap_congr each, List.filterMap_eq_map]
  have ordered : (g.metrics.map fun m => (MetricRow.ofMetric m, executionRowFor m)).mergeSort
      (fun a b => a.1.createdAt ≤ b.1.createdAt) =
        g.inTimeOrder.metrics.map fun m => (MetricRow.ofMetric m, executionRowFor m) := by
    symm
    apply List.map_mergeSort
    intro a aMember b bMember
    have text := Column.instantText_le_iff (common.2 a aMember).1 (common.2 b bMember).1
    rw [Bool.eq_iff_iff, Bool.not_eq_true', decide_eq_true_eq]
    exact text.symm
  unfold metricsOf
  simp only [rows, joined]
  rw [ordered]
  refine (Parsed.mapM_map fun m member => ?_).trans (congrArg _ (List.map_id _))
  have present : m ∈ g.metrics := (List.mergeSort_perm _ _).subset member
  obtain ⟨created, executionCreated⟩ := common.2 m present
  refine (MetricRow.toMetric_ofMetric created executionCreated).trans (congrArg _ ?_)
  rw [← adopted.names m present]
  exact adopted.settled m present

theorem metricsOf_addGroup_other {db : Database} {g : MetricsGroup} (admits : db.Admits g)
    (adopted : g.Adopted) {groupId : String} (other : groupId ≠ g.id.text) :
    (db.addGroup g).metricsOf groupId = db.metricsOf groupId := by
  have noneNew : (g.metrics.map MetricRow.ofMetric).filter
      (fun r => r.metricsGroupId = groupId) = [] := by
    rw [List.filter_eq_nil_iff]
    rintro r added same
    obtain ⟨m, member, rfl⟩ := List.mem_map.mp added
    apply other
    rw [← of_decide_eq_true same, ← adopted.groups m member]
    rfl
  have rows : (db.addGroup g).metrics.filter (fun r => r.metricsGroupId = groupId) =
      db.metrics.filter fun r => r.metricsGroupId = groupId := by
    refine (List.filter_append _ _).trans ?_
    rw [noneNew, List.append_nil]
  have joined : (db.metrics.filter fun r => r.metricsGroupId = groupId).filterMap
      (db.addGroup g).join =
        (db.metrics.filter fun r => r.metricsGroupId = groupId).filterMap db.join := by
    apply List.filterMap_congr
    intro r member
    exact join_addMetrics_old (List.mem_of_mem_filter member) fun m present =>
      { metric := (admits.free m present).metric, owner := (admits.free m present).owner }
  unfold metricsOf
  rw [rows, joined]

theorem readGroup_addGroup_own {db : Database} {g : MetricsGroup} (formed : WellFormed db)
    (admits : db.Admits g) (adopted : g.Adopted) (common : g.InCommonYears) :
    (db.addGroup g).readGroup (.ofGroup g) = .ok g.inTimeOrder :=
  readGroup_ok.mpr ⟨_, GroupRow.toGroup_ofGroup common.1 [], _,
    metricsOf_addGroup_own formed admits adopted common, rfl⟩

theorem readGroup_addGroup_other {db : Database} {g h : MetricsGroup} (formed : WellFormed db)
    (admits : db.Admits g) (adopted : g.Adopted) {r : GroupRow} (stored : r ∈ db.groups)
    (read : db.readGroup r = .ok h) : (db.addGroup g).readGroup r = .ok h := by
  obtain ⟨bare, readBare, metrics, readMetrics, rfl⟩ := readGroup_ok.mp read
  have key := formed.groupId_of_read stored readBare
  have other : bare.id.text ≠ g.id.text := key ▸ admits.newGroup r stored
  exact readGroup_ok.mpr ⟨bare, readBare, metrics,
    (metricsOf_addGroup_other admits adopted other).trans readMetrics, rfl⟩

/-! ### Times in common years -/

def CommonTime (text : String) : Prop :=
  ∃ t : Instant, t.InCommonYears ∧ text = Column.instantText t

structure InCommonYears (db : Database) : Prop where
  groups : ∀ r ∈ db.groups, CommonTime r.createdAt
  metrics : ∀ r ∈ db.metrics, CommonTime r.createdAt
  executions : ∀ r ∈ db.executions, CommonTime r.createdAt

theorem inCommonYears_of_moment {db : Database} (t : Instant) (common : t.InCommonYears)
    (groups : ∀ r ∈ db.groups, r.createdAt = Column.instantText t)
    (metrics : ∀ r ∈ db.metrics, r.createdAt = Column.instantText t)
    (executions : ∀ r ∈ db.executions, r.createdAt = Column.instantText t) : db.InCommonYears :=
  { groups := fun r stored => ⟨t, common, groups r stored⟩
    metrics := fun r stored => ⟨t, common, metrics r stored⟩
    executions := fun r stored => ⟨t, common, executions r stored⟩ }

theorem toMetric_of_common {r : MetricRow} {e : ExecutionRow} (metric : ∃ m, r = .ofMetric m)
    (execution : ∃ id x, e = .ofExecution id x) (created : CommonTime r.createdAt)
    (executionCreated : CommonTime e.createdAt) (joined : e.metricId = r.id) :
    ∃ m, r.toMetric e = .ok m := by
  obtain ⟨m, rfl⟩ := metric
  obtain ⟨id, x, rfl⟩ := execution
  obtain ⟨t, common, time⟩ := created
  obtain ⟨u, executionCommon, executionTime⟩ := executionCreated
  have row : MetricRow.ofMetric m = .ofMetric { m with createdAt := t } := by
    unfold MetricRow.ofMetric
    rw [show Column.instantText m.createdAt = Column.instantText t from time]
  have executionRow : ExecutionRow.ofExecution id x =
      .ofExecution m.id { x with createdAt := u } := by
    unfold ExecutionRow.ofExecution
    rw [show Column.instantText x.createdAt = Column.instantText u from executionTime,
      show id.text = m.id.text from joined]
  rw [row, executionRow]
  exact ⟨_, MetricRow.toMetric_ofMetric (m := { m with createdAt := t }) common executionCommon⟩

theorem metricsOf_of_common {db : Database} (formed : WellFormed db) (common : db.InCommonYears)
    (groupId : String) : ∃ metrics, db.metricsOf groupId = .ok metrics := by
  have each : ∀ row ∈ ((db.metrics.filter fun r => r.metricsGroupId = groupId).filterMap
      db.join).mergeSort (fun a b => a.1.createdAt ≤ b.1.createdAt),
      ∃ m, row.1.toMetric row.2 = .ok m := by
    intro row member
    have listed := (List.mergeSort_perm _ _).subset member
    obtain ⟨r, chosen, found⟩ := List.mem_filterMap.mp listed
    have stored := List.mem_of_mem_filter chosen
    obtain ⟨rfl, present⟩ := join_eq_some found
    obtain ⟨executionStored, names⟩ := Store.find_some_key ExecutionRow.metricId present
    exact toMetric_of_common (formed.metrics _ stored) (formed.executions _ executionStored)
      (common.metrics _ stored) (common.executions _ executionStored) names
  exact Parsed.mapM_exists each

theorem readGroup_of_common {db : Database} (formed : WellFormed db) (common : db.InCommonYears)
    {r : GroupRow} (stored : r ∈ db.groups) : ∃ g, db.readGroup r = .ok g := by
  obtain ⟨g, rfl⟩ := formed.groups r stored
  obtain ⟨t, timed, time⟩ := common.groups _ stored
  have row : GroupRow.ofGroup g = .ofGroup { g with createdAt := t } := by
    unfold GroupRow.ofGroup
    rw [show Column.instantText g.createdAt = Column.instantText t from time]
  obtain ⟨metrics, readMetrics⟩ := metricsOf_of_common formed common g.id.text
  rw [row]
  exact ⟨_, readGroup_ok.mpr ⟨_, GroupRow.toGroup_ofGroup timed [], metrics, readMetrics, rfl⟩⟩

end Database

namespace RelationalStore

open Database

theorem listMetricsGroups_ok {s : RelationalStore} {listed : List MetricsGroup} :
    Store.listMetricsGroups s = .ok listed ↔
      s.closed = false ∧
        (s.database.groups.mergeSort fun a b => a.createdAt ≤ b.createdAt).mapM
          s.database.readGroup = .ok listed := by
  rw [← readGroups_ok]
  constructor
  · intro answered
    obtain ⟨opened, result⟩ := whenOpen_ok answered
    refine ⟨opened, ?_⟩
    cases read : s.database.readGroups
        (s.database.groups.mergeSort fun a b => a.createdAt ≤ b.createdAt) with
    | error fault =>
        rw [read] at result
        cases result
    | ok groups =>
        rw [read] at result
        cases result
        rfl
  · rintro ⟨opened, read⟩
    refine (whenOpen_of_open _ opened).trans ?_
    rw [read]
    rfl

theorem findMetricsGroup_ok {s : RelationalStore} {id : EntityId} {g : MetricsGroup}
    (found : Store.findMetricsGroup id s = .ok (some g)) :
    s.closed = false ∧ ∃ r ∈ s.database.groups, s.database.readGroup r = .ok g := by
  obtain ⟨opened, result⟩ := whenOpen_ok found
  refine ⟨opened, ?_⟩
  cases read : s.database.readGroups (s.database.groups.filter fun r => r.id = id.text) with
  | error fault =>
      rw [read] at result
      cases result
  | ok groups =>
      rw [read] at result
      have first : groups.head? = some g := Except.ok.inj result
      obtain ⟨r, chosen, readRow⟩ :=
        Parsed.exists_source (Parsed.mapM_ok (readGroups_ok.mp read)) (List.mem_of_head? first)
      exact ⟨r, List.mem_of_mem_filter chosen, readRow⟩

end RelationalStore

end RolloutWatch

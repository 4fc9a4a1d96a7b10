import RolloutWatch.Proofs.Memory.Writes
import RolloutWatch.Proofs.Service.Adoption
import RolloutWatch.Proofs.Service.Change

/-!
Ownership in the store in memory: groups own metrics and every metric owns one execution.
The tables know nothing of each other, so the links between them are an invariant of the
turns. It takes fresh identifiers only to keep apart the identifiers of executions, which the
store does not check; all else is kept by any turn.
-/

namespace RolloutWatch.MemoryStore

/-- Groups and metrics have identifiers of their own, every metric belongs to a stored group,
and the executions are those of the metrics, one for each and in their order. -/
structure Linked (s : MemoryStore) : Prop where
  groupIds : (s.groups.map MetricsGroup.id).Nodup
  metricIds : s.metricIds.Nodup
  owners : ∀ m ∈ s.metrics, m.metricsGroupId ∈ s.groups.map MetricsGroup.id
  executions : s.executions.map MetricExecution.metricId = s.metricIds

/-- The tables are linked, and executions have identifiers of their own. -/
structure Owned (s : MemoryStore) : Prop extends Linked s where
  executionIds : (s.executions.map MetricExecution.id).Nodup

theorem empty_owned : Owned empty :=
  { groupIds := List.nodup_nil
    metricIds := List.nodup_nil
    owners := fun _ member => absurd member List.not_mem_nil
    executions := rfl
    executionIds := List.nodup_nil }

/-! ### The same links -/

theorem metricIds_eq_links (s : MemoryStore) : s.metricIds = s.links.metrics.map Prod.fst := by
  simp only [metricIds, links, List.map_map, Function.comp_def]

theorem executionMetricIds_eq_links (s : MemoryStore) :
    s.executions.map MetricExecution.metricId =
      s.links.executions.map fun identity => identity.2.1 := by
  simp only [links, List.map_map, Function.comp_def, MetricExecution.identity]

theorem executionIds_eq_links (s : MemoryStore) :
    s.executions.map MetricExecution.id =
      s.links.executions.map fun identity => identity.1 := by
  simp only [links, List.map_map, Function.comp_def, MetricExecution.identity]

theorem owners_iff_links (s : MemoryStore) :
    (∀ m ∈ s.metrics, m.metricsGroupId ∈ s.groups.map MetricsGroup.id) ↔
      ∀ link ∈ s.links.metrics, link.2 ∈ s.links.groups := by
  simp only [links, List.forall_mem_map]

theorem Linked.of_links {s after : MemoryStore} (linked : Linked s)
    (same : after.links = s.links) : Linked after :=
  { groupIds := by
      have groups := congrArg Links.groups same
      simp only [links] at groups
      rw [groups]
      exact linked.groupIds
    metricIds := by
      rw [metricIds_eq_links, same, ← metricIds_eq_links]
      exact linked.metricIds
    owners := by
      rw [owners_iff_links, same, ← owners_iff_links]
      exact linked.owners
    executions := by
      rw [executionMetricIds_eq_links, metricIds_eq_links, same,
        ← executionMetricIds_eq_links, ← metricIds_eq_links]
      exact linked.executions }

theorem Owned.of_links {s after : MemoryStore} (owned : Owned s)
    (same : after.links = s.links) : Owned after :=
  { owned.toLinked.of_links same with
    executionIds := by
      rw [executionIds_eq_links, same, ← executionIds_eq_links]
      exact owned.executionIds }

theorem executionWrites_links {s after : MemoryStore} (written : ExecutionWrites s after) :
    after.links = s.links := by
  induction written with
  | refl => rfl
  | tail earlier last ih =>
      obtain ⟨e, found, updated⟩ := last
      exact (updateMetricExecution_links updated).trans ih

theorem executionWrites_tables {s after : MemoryStore} (written : ExecutionWrites s after) :
    ∃ executions, after = { s with executions } := by
  induction written with
  | refl => exact ⟨s.executions, rfl⟩
  | tail earlier last ih =>
      obtain ⟨e, found, updated⟩ := last
      obtain ⟨executions, rfl⟩ := ih
      obtain ⟨-, result⟩ := whenOpen_ok updated
      cases result
      exact ⟨_, rfl⟩

/-! ### Rows that go -/

/-- With identifiers of their own, the metrics that go are known by their identifiers. -/
theorem id_mem_removed_iff {s : MemoryStore} (distinct : s.metricIds.Nodup)
    (gone : Metric → Bool) {m : Metric} (member : m ∈ s.metrics) :
    m.id ∈ (s.metrics.filter gone).map Metric.id ↔ gone m = true := by
  constructor
  · intro removed
    obtain ⟨other, present, same⟩ := List.mem_map.mp removed
    obtain ⟨stored, goes⟩ := List.mem_filter.mp present
    have equal := List.inj_on_of_nodup_map distinct stored member same
    rw [← equal]
    exact goes
  · intro goes
    exact List.mem_map_of_mem (List.mem_filter.mpr ⟨member, goes⟩)

/-- Executions go together with their metrics, and the others stay in their order. -/
theorem removeMetrics_executions {s : MemoryStore} (distinct : s.metricIds.Nodup)
    (aligned : s.executions.map MetricExecution.metricId = s.metricIds)
    (gone : Metric → Bool) :
    (s.removeMetrics gone).executions.map MetricExecution.metricId =
      (s.removeMetrics gone).metricIds := by
  let keep : EntityId → Bool := fun id =>
    !((s.metrics.filter gone).map Metric.id).contains id
  have stays : ∀ m ∈ s.metrics, keep m.id = !gone m := by
    intro m member
    have known := id_mem_removed_iff distinct gone member
    cases goes : gone m with
    | true =>
        have removed := known.mpr goes
        simp only [keep, List.contains_iff_mem.mpr removed]
    | false =>
        have present : m.id ∉ (s.metrics.filter gone).map Metric.id := by
          intro removed
          have impossible := known.mp removed
          rw [goes] at impossible
          cases impossible
        simp only [keep, List.contains_eq_mem, present, decide_false]
  calc (s.removeMetrics gone).executions.map MetricExecution.metricId
      = (s.executions.map MetricExecution.metricId).filter keep := by
        rw [List.filter_map]
        rfl
    _ = s.metricIds.filter keep := by rw [aligned]
    _ = (s.metrics.filter fun m => keep m.id).map Metric.id := by
        unfold metricIds
        rw [List.filter_map]
        rfl
    _ = (s.metrics.filter fun m => !gone m).map Metric.id := by
        rw [List.filter_congr stays]

theorem executionFor_removeMetrics {s : MemoryStore} (distinct : s.metricIds.Nodup)
    (gone : Metric → Bool) {id : EntityId} (stays : id ∈ (s.removeMetrics gone).metricIds) :
    (s.removeMetrics gone).executionFor id = s.executionFor id := by
  obtain ⟨m, member, same⟩ := List.mem_map.mp stays
  obtain ⟨stored, kept⟩ := List.mem_filter.mp member
  apply Store.find_filter_of_kept MetricExecution.metricId
  intro e names
  have present : m.id ∉ (s.metrics.filter gone).map Metric.id := by
    rw [id_mem_removed_iff distinct gone stored]
    intro goes
    rw [goes] at kept
    cases kept
  rw [names, ← same]
  simp only [List.contains_eq_mem, present, decide_false, Bool.not_false]

/-! ### One turn -/

/-- What a turn can do to the tables: keep the links and the executions, write executions, add
metrics that start anew, or remove metrics with their executions. -/
inductive TableChange (turn : Turn) (s : MemoryStore) : MemoryStore → Prop where
  | linksKept {after : MemoryStore} (links : after.links = s.links)
      (executions : after.executions = s.executions) : TableChange turn s after
  | executionsWritten {after : MemoryStore}
      (writes : turn.call.setsExecution = true ∨ turn.call.keepsReadings = true)
      (written : ExecutionWrites s after) : TableChange turn s after
  | metricsAdded (gs : List MetricsGroup) (ms : List Metric)
      (groupIds : (gs.map MetricsGroup.id).Nodup)
      (newGroups : ∀ g ∈ gs, g.id ∉ s.groups.map MetricsGroup.id)
      (metricIds : (ms.map Metric.id).Nodup)
      (newMetrics : ∀ m ∈ ms, m.id ∉ s.metricIds)
      (owners : ∀ m ∈ ms, m.metricsGroupId ∈ (s.groups ++ gs).map MetricsGroup.id)
      (anew : ∀ m ∈ ms, m.StartsAnew m.metricsGroupId turn.supply)
      (drawn : (ms.map fun m => m.execution.id).Sublist (turn.draws s)) :
      TableChange turn s
        { s with
          groups := s.groups ++ gs
          metrics := s.metrics ++ ms
          executions := s.executions ++ ms.map Metric.execution }
  | metricsRemoved (groups : List MetricsGroup) (gone : Metric → Bool)
      (groupsKept : groups.Sublist s.groups)
      (owners : ∀ m ∈ s.metrics, gone m = false →
        m.metricsGroupId ∈ s.groups.map MetricsGroup.id →
        m.metricsGroupId ∈ groups.map MetricsGroup.id) :
      TableChange turn s (removeMetrics { s with groups } gone)

private theorem tableChange_of_groupCreated {turn : Turn} {s after : MemoryStore}
    (g : MetricsGroup)
    (drawn : turn.draws s = turn.supply.idsUpTo (Groups.prepare g turn.supply).2)
    (written : insertMetricsGroup (Groups.prepare g turn.supply).1 s = .ok after) :
    TableChange turn s after := by
  obtain ⟨newGroup, distinct, newMetrics, rfl⟩ := insertMetricsGroup_tables written
  have anew := Groups.prepare_startsAnew g turn.supply
  refine .metricsAdded _ _ (List.nodup_singleton _) ?_ distinct newMetrics ?_ ?_ ?_
  · intro added member
    rw [List.mem_singleton.mp member]
    exact newGroup
  · intro m member
    rw [List.map_append, (anew m member).group]
    exact List.mem_append_right _ List.mem_cons_self
  · intro m member
    rw [(anew m member).group]
    exact anew m member
  · rw [drawn, Groups.prepare_draws]
    exact List.sublist_append_right _ _

private theorem tableChange_of_metricAdded {turn : Turn} {s after : MemoryStore}
    (groupId circleId : EntityId) (m : Metric)
    (drawn : turn.draws s =
      turn.supply.idsUpTo (MetricsGroup.adoptMetric groupId circleId m turn.supply).2)
    (written :
      insertMetric (MetricsGroup.adoptMetric groupId circleId m turn.supply).1 s = .ok after) :
    TableChange turn s after := by
  obtain ⟨owned, newMetric, rfl⟩ := insertMetric_tables written
  have anew := MetricsGroup.adoptMetric_startsAnew groupId circleId m turn.supply
  have groups : s.groups = s.groups ++ [] := (List.append_nil _).symm
  -- The case of added metrics asks for groups that are added with them: here there are none.
  rw [groups]
  refine .metricsAdded [] [_] List.nodup_nil ?_ (List.nodup_singleton _) ?_ ?_ ?_ ?_
  · intro g member
    cases member
  · intro other member
    rw [List.mem_singleton.mp member]
    exact newMetric
  · intro other member
    rw [List.mem_singleton.mp member, ← groups]
    exact owned
  · intro other member
    rw [List.mem_singleton.mp member]
    exact anew
  · rw [drawn, MetricsGroup.adoptMetric_draws]
    exact List.Sublist.refl _

private theorem tableChange_of_groupDeleted {turn : Turn} {s after : MemoryStore}
    {id : EntityId} {found : Bool} (written : deleteMetricsGroup id s = .ok (found, after)) :
    TableChange turn s after := by
  rcases deleteMetricsGroup_tables written with rfl | rfl
  · exact .linksKept rfl rfl
  · refine .metricsRemoved _ _ List.filter_sublist ?_
    intro m stored stays owner
    obtain ⟨g, present, same⟩ := List.mem_map.mp owner
    refine List.mem_map.mpr ⟨g, List.mem_filter.mpr ⟨present, ?_⟩, same⟩
    rw [same]
    exact decide_eq_true (of_decide_eq_false stays)

theorem tableChange {turn : Turn} {s after : MemoryStore} (change : Change turn s after) :
    TableChange turn s after := by
  cases change with
  | kept => exact .linksKept rfl rfl
  | sourceCreated input written =>
      obtain ⟨sources, rfl⟩ := insertDataSource_tables written
      exact .linksKept rfl rfl
  | sourceDeleted id deletedAt written =>
      obtain ⟨sources, rfl⟩ := changeSource_tables written
      exact .linksKept rfl rfl
  | healthSet id health written =>
      obtain ⟨sources, rfl⟩ := changeSource_tables written
      exact .linksKept rfl rfl
  | groupCreated g drawn written => exact tableChange_of_groupCreated g drawn written
  | groupUpdated id u written =>
      obtain ⟨links, -, executions⟩ := updateMetricsGroup_links written
      exact .linksKept links executions
  | groupDeleted id written => exact tableChange_of_groupDeleted written
  | metricAdded groupId circleId m drawn written =>
      exact tableChange_of_metricAdded groupId circleId m drawn written
  | metricUpdated m written =>
      obtain ⟨links, executions⟩ := updateMetric_links written
      exact .linksKept links executions
  | metricRemoved id written =>
      rw [deleteMetric_tables written]
      exact .metricsRemoved s.groups _ (List.Sublist.refl _) fun _ _ _ owner => owner
  | executionsWritten writes written => exact .executionsWritten writes written
  | closed => exact .linksKept rfl rfl

private theorem Linked.metricsAdded {s : MemoryStore} {turn : Turn} (linked : Linked s)
    {gs : List MetricsGroup} {ms : List Metric} (groupIds : (gs.map MetricsGroup.id).Nodup)
    (newGroups : ∀ g ∈ gs, g.id ∉ s.groups.map MetricsGroup.id)
    (metricIds : (ms.map Metric.id).Nodup) (newMetrics : ∀ m ∈ ms, m.id ∉ s.metricIds)
    (owners : ∀ m ∈ ms, m.metricsGroupId ∈ (s.groups ++ gs).map MetricsGroup.id)
    (anew : ∀ m ∈ ms, m.StartsAnew m.metricsGroupId turn.supply) :
    Linked
      { s with
        groups := s.groups ++ gs
        metrics := s.metrics ++ ms
        executions := s.executions ++ ms.map Metric.execution } := by
  refine { groupIds := ?_, metricIds := ?_, owners := ?_, executions := ?_ }
  · rw [List.map_append]
    refine linked.groupIds.append groupIds ?_
    intro id stored added
    obtain ⟨g, member, same⟩ := List.mem_map.mp added
    rw [← same] at stored
    exact newGroups g member stored
  · change ((s.metrics ++ ms).map Metric.id).Nodup
    rw [List.map_append]
    refine linked.metricIds.append metricIds ?_
    intro id stored added
    obtain ⟨m, member, same⟩ := List.mem_map.mp added
    rw [← same] at stored
    exact newMetrics m member stored
  · intro m member
    rcases List.mem_append.mp member with stored | added
    · rw [List.map_append]
      exact List.mem_append_left _ (linked.owners m stored)
    · exact owners m added
  · change (s.executions ++ ms.map Metric.execution).map MetricExecution.metricId =
      (s.metrics ++ ms).map Metric.id
    rw [List.map_append, List.map_append, linked.executions, List.map_map]
    exact congrArg (s.metricIds ++ ·)
      (List.map_congr_left fun m member => (anew m member).names)

/-- No turn breaks the links, whatever identifiers it draws. -/
theorem Linked.change {s after : MemoryStore} {turn : Turn} (linked : Linked s)
    (change : Change turn s after) : Linked after := by
  cases tableChange change with
  | linksKept links executions => exact linked.of_links links
  | executionsWritten writes written => exact linked.of_links (executionWrites_links written)
  | metricsAdded gs ms groupIds newGroups metricIds newMetrics owners anew drawn =>
      exact linked.metricsAdded groupIds newGroups metricIds newMetrics owners anew
  | metricsRemoved groups gone groupsKept owners =>
      exact
        { groupIds := linked.groupIds.sublist (groupsKept.map _)
          metricIds := linked.metricIds.sublist (List.filter_sublist.map _)
          owners := fun m member => by
            obtain ⟨stored, stays⟩ := List.mem_filter.mp member
            exact owners m stored ((Bool.not_eq_true' _).mp stays) (linked.owners m stored)
          executions := removeMetrics_executions linked.metricIds linked.executions gone }

theorem Linked.run {s : MemoryStore} (linked : Linked s) (turns : List Turn) :
    Linked (Turn.run turns s) :=
  Turn.invariant_run (fun turn s earlier => earlier.change (turn.change s)) turns linked

theorem linked_of_run {s : MemoryStore} {turns : List Turn} (reached : s = Turn.run turns .empty) :
    Linked s := by
  rw [reached]
  exact empty_owned.toLinked.run turns

end RolloutWatch.MemoryStore

import RolloutWatch.Proofs.Memory.Lifetime
import RolloutWatch.Proofs.Memory.Sources
import RolloutWatch.Proofs.Relational.Codec
import RolloutWatch.Proofs.Relational.Keys

/-!
The store in memory as a database: its tables as rows. Every operation of the relational
store on the rows does what the operation in memory does on the tables, and what it reads is
what is read in memory, with the numbers settled. The reads need the links between the
tables, and times of creation whose texts can be read back and are in the order of insertion.
-/

namespace RolloutWatch

/-- Keys are compared by the texts of identifiers, which are as different as these. -/
theorem EntityId.decide_text (a b : EntityId) : decide (a.text = b.text) = decide (a = b) :=
  decide_eq_decide.mpr ⟨text_injective, congrArg text⟩

/-! ### Times of creation -/

structure InOrder (times : List Instant) : Prop where
  common : ∀ t ∈ times, t.InCommonYears
  ascending : times.Pairwise fun a b => b.before a = false

theorem InOrder.sublist {times fewer : List Instant} (order : InOrder times)
    (kept : fewer.Sublist times) : InOrder fewer :=
  { common := fun t member => order.common t (kept.subset member)
    ascending := order.ascending.sublist kept }

/-- Rows in the order of their times are in the order of the texts of these. -/
theorem InOrder.mergeSort_rows {α β : Type} {items : List α} {time : α → Instant}
    (order : InOrder (items.map time)) (row : α → β) (column : β → String)
    (written : ∀ a ∈ items, column (row a) = Column.instantText (time a)) :
    (items.map row).mergeSort (fun a b => column a ≤ column b) = items.map row := by
  apply List.mergeSort_of_pairwise
  rw [List.pairwise_map]
  have ascending := List.pairwise_map.mp order.ascending
  refine (List.Pairwise.and_mem.mp ascending).imp ?_
  rintro a b ⟨aMember, bMember, later⟩
  rw [written a aMember, written b bMember]
  exact decide_eq_true ((Column.instantText_le_iff
    (order.common _ (List.mem_map_of_mem aMember))
    (order.common _ (List.mem_map_of_mem bMember))).mpr later)

namespace MemoryStore

/-- Groups, metrics and executions are in the order of their times of creation, which lie in
common years. -/
structure Chronological (s : MemoryStore) : Prop where
  groups : InOrder (s.groups.map MetricsGroup.createdAt)
  metrics : InOrder (s.metrics.map Metric.createdAt)
  executions : InOrder (s.executions.map MetricExecution.createdAt)

/-! ### The rows of a store -/

def executionRowOf (e : MetricExecution) : ExecutionRow :=
  .ofExecution e.metricId e

def rows (s : MemoryStore) : Database :=
  { sources := s.sources.map .ofSource
    groups := s.groups.map .ofGroup
    metrics := s.metrics.map .ofMetric
    executions := s.executions.map executionRowOf }

def mirror (s : MemoryStore) : RelationalStore :=
  { database := s.rows, closed := s.closed }

theorem mirror_whenOpen {α β : Type} (s : MemoryStore) {answer : Except Error α}
    {mirrored : Except Error β} {view : α → β} (same : mirrored = answer.map view) :
    s.mirror.whenOpen mirrored = (s.whenOpen answer).map view := by
  unfold RelationalStore.whenOpen whenOpen
  rw [same]
  change (if s.closed = true then _ else _) = _
  cases s.closed <;> rfl

theorem mirror_whenOpen_same {α : Type} (s : MemoryStore) {answer mirrored : Except Error α}
    (same : mirrored = answer) : s.mirror.whenOpen mirrored = s.whenOpen answer := by
  rw [same]
  rfl

def mirrorFound (result : Bool × MemoryStore) : Bool × RelationalStore :=
  (result.1, result.2.mirror)

theorem mirror_writeWhere (s : MemoryStore) {found : Bool} {db : Database}
    {after : MemoryStore} (rows : db = after.rows) (closed : after.closed = s.closed) :
    s.mirror.writeWhere found db = (s.whenOpen (.ok (found, after))).map mirrorFound := by
  apply mirror_whenOpen
  have same : { s.mirror with database := db } = after.mirror := by
    rw [rows]
    unfold mirror
    rw [closed]
  rw [same]
  rfl

/-! ### Data sources -/

theorem live_ofSource (source : DataSource) :
    RelationalStore.isLive (.ofSource source) = !source.isDeleted := by
  unfold RelationalStore.isLive DataSource.isDeleted SourceRow.ofSource
  cases source.deletedAt <;> rfl

theorem liveId_ofSource (id : EntityId) :
    (fun r : SourceRow => decide (r.id = id.text) && RelationalStore.isLive r) ∘
        SourceRow.ofSource =
      fun source => decide (source.id = id) && !source.isDeleted := by
  funext source
  rw [Function.comp_apply, live_ofSource]
  exact congrArg (· && !source.isDeleted) (EntityId.decide_text source.id id)

theorem toSource_of_live {source : DataSource} (common : source.createdAt.InCommonYears)
    (live : source.isDeleted = false) :
    (SourceRow.ofSource source).toSource = .ok source := by
  apply SourceRow.toSource_ofSource
  refine ⟨common, fun t deleted => ?_⟩
  unfold DataSource.isDeleted at live
  rw [deleted] at live
  cases live

theorem mirror_findDataSource {s : MemoryStore} (dated : SourcesDated s) (id : EntityId) :
    RelationalStore.findDataSource id s.mirror = findDataSource id s := by
  have wanted := liveId_ofSource id
  have search : s.mirror.database.sources.find?
      (fun r => r.id = id.text && RelationalStore.isLive r) =
      ((s.sources.find? fun source => source.id = id).filter fun source =>
        !source.isDeleted).map SourceRow.ofSource := by
    rw [← Store.find_and_of_nodup DataSource.id id _ s.sources dated.ids, ← wanted]
    exact List.find?_map
  apply s.mirror_whenOpen_same
  rw [search]
  cases found : (s.sources.find? fun source => source.id = id).filter fun source =>
      !source.isDeleted with
  | none => rfl
  | some source =>
      obtain ⟨first, live⟩ := Option.filter_eq_some_iff.mp found
      have common := dated.common source (List.mem_of_find?_eq_some first)
      have read := toSource_of_live common ((Bool.not_eq_true' _).mp live)
      change (Database.parsed (SourceRow.ofSource source).toSource).map some = .ok (some source)
      rw [read]
      rfl

theorem health_name_iff {a b : Health} : a.name = b.name ↔ a = b := by
  cases a <;> cases b <;> decide

theorem isListed_ofSource (workspaceId : EntityId) (health : Option Health)
    (source : DataSource) :
    RelationalStore.isListed workspaceId health (.ofSource source) =
      isListed workspaceId health source := by
  unfold RelationalStore.isListed isListed
  have workspace : decide ((SourceRow.ofSource source).workspaceId = workspaceId.text) =
      decide (source.workspaceId = workspaceId) := EntityId.decide_text _ _
  rw [live_ofSource, workspace, Bool.and_comm _ (!source.isDeleted)]
  cases health with
  | none => rfl
  | some h =>
      have same : decide ((SourceRow.ofSource source).health = h.name) =
          decide (source.health = h) := decide_eq_decide.mpr health_name_iff
      simp only [same]

theorem listedBefore_ofSource {a b : DataSource} (aCommon : a.createdAt.InCommonYears)
    (bCommon : b.createdAt.InCommonYears) :
    listedBefore a b = RelationalStore.listedBefore (.ofSource a) (.ofSource b) := by
  have before := Column.instantText_lt_iff aCommon bCommon
  have after := Column.instantText_lt_iff bCommon aCommon
  unfold listedBefore RelationalStore.listedBefore SourceRow.ofSource
  simp only
  cases earlier : a.createdAt.before b.createdAt with
  | true =>
      rw [decide_eq_true (before.mpr earlier), Bool.true_or, Bool.true_or]
  | false =>
      have notBefore : ¬ Column.instantText a.createdAt < Column.instantText b.createdAt := by
        rw [before, earlier]
        decide
      rw [decide_eq_false notBefore, Bool.false_or, Bool.false_or]
      have equal : (!b.createdAt.before a.createdAt) =
          decide (Column.instantText a.createdAt = Column.instantText b.createdAt) := by
        symm
        cases later : b.createdAt.before a.createdAt with
        | true =>
            have less := after.mpr later
            exact decide_eq_false fun same => by
              rw [same] at less
              exact String.lt_irrefl _ less
        | false =>
            have notAfter : ¬ Column.instantText b.createdAt < Column.instantText a.createdAt := by
              rw [after, later]
              decide
            exact decide_eq_true (String.le_antisymm (String.not_lt.mp notAfter)
              (String.not_lt.mp notBefore))
      rw [equal]

theorem mirror_listDataSources {s : MemoryStore} (dated : SourcesDated s)
    (workspaceId : EntityId) (health : Option Health) :
    RelationalStore.listDataSources workspaceId health s.mirror =
      listDataSources workspaceId health s := by
  have wanted : RelationalStore.isListed workspaceId health ∘ SourceRow.ofSource =
      isListed workspaceId health :=
    funext (isListed_ofSource workspaceId health)
  have listed : s.rows.sources.filter (RelationalStore.isListed workspaceId health) =
      (s.sources.filter (isListed workspaceId health)).map .ofSource := by
    rw [← wanted]
    exact List.filter_map
  have common : ∀ source ∈ s.sources.filter (isListed workspaceId health),
      source.createdAt.InCommonYears := fun source member =>
    dated.common source (List.mem_of_mem_filter member)
  apply s.mirror_whenOpen_same
  change Database.parsed (((s.rows.sources.filter _).mergeSort _).mapM _) = _
  have sorted : ((s.sources.filter (isListed workspaceId health)).mergeSort listedBefore).map
      SourceRow.ofSource =
        ((s.sources.filter (isListed workspaceId health)).map SourceRow.ofSource).mergeSort
          RelationalStore.listedBefore :=
    List.map_mergeSort fun a aMember b bMember =>
      listedBefore_ofSource (common a aMember) (common b bMember)
  rw [listed, ← sorted]
  have read : (((s.sources.filter (isListed workspaceId health)).mergeSort listedBefore).map
      SourceRow.ofSource).mapM SourceRow.toSource =
        .ok (((s.sources.filter (isListed workspaceId health)).mergeSort listedBefore).map
          fun source => source) := by
    apply Parsed.mapM_map
    intro source member
    have selected := (List.mergeSort_perm _ _).subset member
    have live := (Bool.and_eq_true _ _).mp
      ((Bool.and_eq_true _ _).mp (List.mem_filter.mp selected).2).1
    exact toSource_of_live (common source selected) ((Bool.not_eq_true' _).mp live.1)
  rw [read, List.map_id']
  rfl

theorem mirror_changeSource (s : MemoryStore) (id : EntityId)
    {change : DataSource → DataSource} {rewrite : SourceRow → SourceRow}
    (same : rewrite ∘ SourceRow.ofSource = SourceRow.ofSource ∘ change) :
    s.mirror.changeSource id rewrite = (s.changeSource id change).map mirrorFound := by
  have updated : Store.updateFirst _ _ s.mirror.database.sources = _ :=
    Store.updateFirst_map (liveId_ofSource id) same s.sources
  unfold RelationalStore.changeSource changeSource
  rw [updated]
  exact s.mirror_writeWhere rfl rfl

/-! ### Metrics with their executions -/

def metricRows (m : Metric) : MetricRow × ExecutionRow :=
  (.ofMetric m, .ofExecution m.id m.execution)

theorem metricId_ofExecution (id : EntityId) :
    (fun r : ExecutionRow => decide (r.metricId = id.text)) ∘ executionRowOf =
      fun e => decide (e.metricId = id) :=
  funext fun e => EntityId.decide_text e.metricId id

theorem rows_executionFor (s : MemoryStore) (id : EntityId) :
    s.rows.executions.find? (fun r => r.metricId = id.text) =
      (s.executionFor id).map executionRowOf := by
  unfold executionFor
  rw [← metricId_ofExecution]
  exact List.find?_map

theorem hydrate_definition (s : MemoryStore) (m : Metric) :
    MetricRow.ofMetric (s.hydrate m) = .ofMetric m ∧ (s.hydrate m).id = m.id ∧
      (s.hydrate m).createdAt = m.createdAt := by
  unfold hydrate
  cases s.executionFor m.id <;> exact ⟨rfl, rfl, rfl⟩

theorem join_ofMetric {s : MemoryStore} (linked : Linked s) {m : Metric}
    (stored : m ∈ s.metrics) :
    s.rows.join (.ofMetric m) = some (metricRows (s.hydrate m)) := by
  obtain ⟨-, names, found⟩ := hydrate_execution linked stored
  obtain ⟨definition, same, -⟩ := s.hydrate_definition m
  have row := s.rows_executionFor m.id
  rw [found] at row
  unfold Database.join metricRows
  rw [definition, same, ← names]
  change (s.rows.executions.find? fun e => e.metricId = m.id.text).map _ = _
  rw [row]
  rfl

theorem toMetric_hydrate {s : MemoryStore} (linked : Linked s) (chronological : s.Chronological)
    {m : Metric} (stored : m ∈ s.metrics) :
    (metricRows (s.hydrate m)).1.toMetric (metricRows (s.hydrate m)).2 =
      .ok (s.hydrate m).settled := by
  obtain ⟨present, names, -⟩ := hydrate_execution linked stored
  obtain ⟨-, same, created⟩ := s.hydrate_definition m
  have common : (s.hydrate m).createdAt.InCommonYears := by
    rw [created]
    exact chronological.metrics.common _ (List.mem_map_of_mem stored)
  have executionCommon := chronological.executions.common _ (List.mem_map_of_mem present)
  refine (MetricRow.toMetric_ofMetric common executionCommon).trans ?_
  rw [same, ← names]
  rfl

/-- The metrics of a group are read as in memory: they stand in the order of their times. -/
theorem mirror_metricsOf {s : MemoryStore} (linked : Linked s) (chronological : s.Chronological)
    (groupId : EntityId) :
    s.rows.metricsOf groupId.text =
      .ok ((s.metrics.filter fun m => m.metricsGroupId = groupId).map fun m =>
        (s.hydrate m).settled) := by
  have wanted : (fun r : MetricRow => decide (r.metricsGroupId = groupId.text)) ∘
      MetricRow.ofMetric = fun m => decide (m.metricsGroupId = groupId) :=
    funext fun m => EntityId.decide_text m.metricsGroupId groupId
  have chosen : s.rows.metrics.filter (fun r => r.metricsGroupId = groupId.text) =
      (s.metrics.filter fun m => m.metricsGroupId = groupId).map .ofMetric := by
    rw [← wanted]
    exact List.filter_map
  have members : ∀ m ∈ s.metrics.filter (fun m => m.metricsGroupId = groupId), m ∈ s.metrics :=
    fun m member => List.mem_of_mem_filter member
  have sorted := chronological.metrics.sublist
    ((List.filter_sublist (p := fun m => decide (m.metricsGroupId = groupId))).map
      Metric.createdAt)
  generalize s.metrics.filter (fun m => m.metricsGroupId = groupId) = ms at *
  have joined : (ms.map MetricRow.ofMetric).filterMap s.rows.join =
      ms.map fun m => metricRows (s.hydrate m) := by
    rw [List.filterMap_map]
    have each : ∀ m ∈ ms, (s.rows.join ∘ MetricRow.ofMetric) m =
        (some ∘ fun m => metricRows (s.hydrate m)) m :=
      fun m member => join_ofMetric linked (members m member)
    rw [List.filterMap_congr each, List.filterMap_eq_map]
  have ordered := sorted.mergeSort_rows (fun m => metricRows (s.hydrate m))
    (fun row => row.1.createdAt) (by
      intro m _
      unfold metricRows
      rw [(s.hydrate_definition m).1]
      rfl)
  unfold Database.metricsOf
  simp only [chosen, joined]
  rw [ordered]
  exact Parsed.mapM_map fun m member => toMetric_hydrate linked chronological (members m member)

/-! ### Groups -/

theorem mirror_readGroups {s : MemoryStore} (linked : Linked s) (chronological : s.Chronological)
    {gs : List MetricsGroup} (stored : ∀ g ∈ gs, g ∈ s.groups) :
    s.rows.readGroups (gs.map .ofGroup) = .ok (gs.map fun g => (s.hydrateGroup g).settled) := by
  have bare : (gs.map GroupRow.ofGroup).mapM (fun r => r.toGroup []) =
      .ok (gs.map fun g => { g with metrics := [] }) :=
    Parsed.mapM_map fun g member => GroupRow.toGroup_ofGroup
      (chronological.groups.common _ (List.mem_map_of_mem (stored g member))) []
  have full : (gs.map fun g => { g with metrics := [] }).mapM (fun g : MetricsGroup => do
      let metrics ← s.rows.metricsOf g.id.text
      pure { g with metrics }) = .ok (gs.map fun g => (s.hydrateGroup g).settled) := by
    apply Parsed.mapM_map
    intro g _
    have metrics := mirror_metricsOf linked chronological g.id
    simp only [metrics]
    unfold hydrateGroup MetricsGroup.settled
    rw [List.map_map]
    rfl
  unfold Database.readGroups
  rw [bare]
  exact full

theorem mirror_listMetricsGroups {s : MemoryStore} (linked : Linked s)
    (chronological : s.Chronological) :
    RelationalStore.listMetricsGroups s.mirror =
      (listMetricsGroups s).map (List.map MetricsGroup.settled) := by
  have ordered := chronological.groups.mergeSort_rows GroupRow.ofGroup GroupRow.createdAt
    fun _ _ => rfl
  apply s.mirror_whenOpen
  change Database.parsed (s.rows.readGroups ((s.groups.map GroupRow.ofGroup).mergeSort _)) = _
  rw [ordered, mirror_readGroups linked chronological fun _ member => member]
  refine congrArg Except.ok ?_
  rw [List.map_map]
  rfl

theorem groupId_ofGroup (id : EntityId) :
    (fun r : GroupRow => decide (r.id = id.text)) ∘ GroupRow.ofGroup =
      fun g => decide (g.id = id) :=
  funext fun g => EntityId.decide_text g.id id

theorem mirror_findMetricsGroup {s : MemoryStore} (linked : Linked s)
    (chronological : s.Chronological) (id : EntityId) :
    RelationalStore.findMetricsGroup id s.mirror =
      (findMetricsGroup id s).map (Option.map MetricsGroup.settled) := by
  have chosen : s.rows.groups.filter (fun r => r.id = id.text) =
      (s.groups.filter fun g => g.id = id).map .ofGroup := by
    rw [← groupId_ofGroup]
    exact List.filter_map
  apply s.mirror_whenOpen
  change (Database.parsed (s.rows.readGroups (s.rows.groups.filter _))).map _ = _
  rw [chosen, mirror_readGroups linked chronological fun g member => List.mem_of_mem_filter member]
  change Except.ok (List.map _ _).head? = Except.ok (Option.map _ (Option.map _ _))
  rw [List.head?_map, List.head?_filter, Option.map_map]
  rfl

theorem mirror_updateMetricsGroup (s : MemoryStore) (id : EntityId) (u : MetricsGroupUpdate) :
    RelationalStore.updateMetricsGroup id u s.mirror =
      (updateMetricsGroup id u s).map mirrorFound := by
  have same : (fun r : GroupRow => { r with name := u.name, circleId := u.circleId.text }) ∘
      GroupRow.ofGroup =
        GroupRow.ofGroup ∘ fun g => { g with name := u.name, circleId := u.circleId } := rfl
  have updated : Store.updateFirst _ _ s.mirror.database.groups = _ :=
    Store.updateFirst_map (groupId_ofGroup id) same s.groups
  unfold RelationalStore.updateMetricsGroup updateMetricsGroup
  rw [updated]
  exact s.mirror_writeWhere rfl rfl

/-- Metrics go as rows, and their executions with them. -/
theorem rows_removeMetrics (s : MemoryStore) {gone : Metric → Bool} {goneRow : MetricRow → Bool}
    (same : goneRow ∘ MetricRow.ofMetric = gone) :
    RelationalStore.removeMetrics goneRow s.rows = (s.removeMetrics gone).rows := by
  have removed : (s.rows.metrics.filter goneRow).map MetricRow.id =
      ((s.metrics.filter gone).map Metric.id).map EntityId.text := by
    unfold rows
    rw [List.filter_map, same, List.map_map, List.map_map]
    rfl
  have metrics : s.rows.metrics.filter (fun r => !goneRow r) =
      (s.metrics.filter fun m => !gone m).map .ofMetric := by
    rw [← same]
    exact List.filter_map
  have names : (fun r : ExecutionRow =>
      !(((s.metrics.filter gone).map Metric.id).map EntityId.text).contains r.metricId) ∘
        executionRowOf =
      fun e => !((s.metrics.filter gone).map Metric.id).contains e.metricId := by
    funext e
    have contained : (((s.metrics.filter gone).map Metric.id).map EntityId.text).contains
        e.metricId.text = ((s.metrics.filter gone).map Metric.id).contains e.metricId := by
      rw [List.contains_eq_mem, List.contains_eq_mem]
      exact decide_eq_decide.mpr
        (List.mem_map_of_injective fun _ _ texts => EntityId.text_injective texts)
    exact congrArg (!·) contained
  have executions : s.rows.executions.filter (fun r =>
      !(((s.metrics.filter gone).map Metric.id).map EntityId.text).contains r.metricId) =
        (s.executions.filter fun e =>
          !((s.metrics.filter gone).map Metric.id).contains e.metricId).map executionRowOf := by
    rw [← names]
    exact List.filter_map
  unfold RelationalStore.removeMetrics
  simp only [removed, metrics, executions]
  rfl

theorem mirror_deleteMetricsGroup {s : MemoryStore} (linked : Linked s) (id : EntityId) :
    RelationalStore.deleteMetricsGroup id s.mirror =
      (deleteMetricsGroup id s).map mirrorFound := by
  have wanted : (fun r : MetricRow => decide (r.metricsGroupId = id.text)) ∘
      MetricRow.ofMetric = fun m => decide (m.metricsGroupId = id) :=
    funext fun m => EntityId.decide_text m.metricsGroupId id
  have others : (fun r : GroupRow => decide (r.id ≠ id.text)) ∘ GroupRow.ofGroup =
      fun g => decide (g.id ≠ id) := by
    funext g
    exact decide_eq_decide.mpr (not_congr (decide_eq_decide.mp (EntityId.decide_text g.id id)))
  have present : s.rows.groups.any (fun r => r.id = id.text) =
      s.groups.any fun g => g.id = id := by
    rw [← groupId_ofGroup]
    exact List.any_map
  have kept : s.rows.groups.filter (fun r => r.id ≠ id.text) =
      (s.groups.filter fun g => g.id ≠ id).map .ofGroup := by
    rw [← others]
    exact List.filter_map
  unfold RelationalStore.deleteMetricsGroup deleteMetricsGroup
  change s.mirror.writeWhere
    ((RelationalStore.removeMetrics _ s.rows).groups.any fun r => r.id = id.text)
    { RelationalStore.removeMetrics _ s.rows with
      groups := (RelationalStore.removeMetrics _ s.rows).groups.filter fun r => r.id ≠ id.text } = _
  rw [s.rows_removeMetrics wanted]
  change s.mirror.writeWhere (s.rows.groups.any fun r => r.id = id.text)
    { (s.removeMetrics _).rows with groups := s.rows.groups.filter fun r => r.id ≠ id.text } = _
  rw [present, kept]
  cases found : s.groups.any fun g => g.id = id with
  | true =>
      simp only [if_true]
      exact s.mirror_writeWhere rfl rfl
  | false =>
      simp only [Bool.false_eq_true, if_false]
      have absent : ∀ g ∈ s.groups, g.id ≠ id := by
        intro g member same
        have unmatched := List.any_eq_false.mp found g member
        exact unmatched (decide_eq_true same)
      have noMetric : ∀ m ∈ s.metrics, decide (m.metricsGroupId = id) = false := by
        intro m member
        apply decide_eq_false
        intro same
        obtain ⟨g, stored, owner⟩ := List.mem_map.mp (linked.owners m member)
        exact absent g stored (owner.trans same)
      have all : s.groups.filter (fun g => g.id ≠ id) = s.groups :=
        List.filter_eq_self.mpr fun g member => decide_eq_true (absent g member)
      rw [removeMetrics_of_none noMetric, all]
      exact s.mirror_writeWhere rfl rfl

/-! ### Metrics -/

theorem metricId_ofMetric (id : EntityId) :
    (fun r : MetricRow => decide (r.id = id.text)) ∘ MetricRow.ofMetric =
      fun m => decide (m.id = id) :=
  funext fun m => EntityId.decide_text m.id id

theorem mirror_findMetric {s : MemoryStore} (linked : Linked s) (chronological : s.Chronological)
    (id : EntityId) :
    RelationalStore.findMetric id s.mirror =
      (findMetric id s).map (Option.map Metric.settled) := by
  have chosen : s.mirror.database.metrics.filter (fun r => r.id = id.text) =
      (s.metrics.filter fun m => m.id = id).map .ofMetric := by
    rw [← metricId_ofMetric]
    exact List.filter_map
  have first : s.metrics.find? (fun m => m.id = id) =
      (s.metrics.filter fun m => m.id = id).head? := List.head?_filter.symm
  have members : ∀ m ∈ s.metrics.filter (fun m => m.id = id), m ∈ s.metrics :=
    fun m member => List.mem_of_mem_filter member
  apply s.mirror_whenOpen
  rw [chosen, first]
  cases found : s.metrics.filter fun m => m.id = id with
  | nil => rfl
  | cons m rest =>
      have stored : m ∈ s.metrics := by
        apply members
        rw [found]
        exact List.mem_cons_self
      have joined : s.mirror.database.join (.ofMetric m) = some (metricRows (s.hydrate m)) :=
        join_ofMetric linked stored
      rw [List.map_cons, List.filterMap_cons_some joined]
      change (Database.parsed ((metricRows (s.hydrate m)).1.toMetric
        (metricRows (s.hydrate m)).2)).map some = _
      rw [toMetric_hydrate linked chronological stored]
      rfl

theorem mirror_updateMetric (s : MemoryStore) (m : Metric) :
    RelationalStore.updateMetric m s.mirror = (updateMetric m s).map mirrorFound := by
  have same : (fun r : MetricRow => r.withDefinitionOf m) ∘ MetricRow.ofMetric =
      MetricRow.ofMetric ∘ fun row => row.withDefinitionOf m := rfl
  have updated : Store.updateFirst _ _ s.mirror.database.metrics = _ :=
    Store.updateFirst_map (metricId_ofMetric m.id) same s.metrics
  unfold RelationalStore.updateMetric updateMetric
  rw [updated]
  exact s.mirror_writeWhere rfl rfl

theorem mirror_deleteMetric {s : MemoryStore} (linked : Linked s) (id : EntityId) :
    RelationalStore.deleteMetric id s.mirror = (deleteMetric id s).map mirrorFound := by
  have present : s.rows.metrics.any (fun r => r.id = id.text) =
      s.metrics.any fun m => m.id = id := by
    rw [← metricId_ofMetric]
    exact List.any_map
  have others : (fun r : MetricRow => decide (r.id ≠ id.text)) ∘ MetricRow.ofMetric =
      fun m => !decide (m.id = id) := by
    funext m
    rw [← EntityId.decide_text]
    exact decide_not
  have metrics : s.rows.metrics.filter (fun r => r.id ≠ id.text) =
      (s.metrics.filter fun m => !decide (m.id = id)).map .ofMetric := by
    rw [← others]
    exact List.filter_map
  have otherExecutions : (fun r : ExecutionRow => decide (r.metricId ≠ id.text)) ∘
      executionRowOf = fun e => !decide (e.metricId = id) := by
    funext e
    rw [← EntityId.decide_text]
    exact decide_not
  -- The executions of the identifier are those of the metrics that go, as all have metrics.
  have gone : ∀ e ∈ s.executions, (!decide (e.metricId = id)) =
      !((s.metrics.filter fun m => decide (m.id = id)).map Metric.id).contains e.metricId := by
    intro e member
    have metric : e.metricId ∈ s.metrics.map Metric.id := by
      have named := List.mem_map_of_mem (f := MetricExecution.metricId) member
      rw [linked.executions] at named
      exact named
    obtain ⟨m, stored, same⟩ := List.mem_map.mp metric
    rw [← same, List.contains_eq_mem]
    refine congrArg (!·) (decide_eq_decide.mpr ?_)
    exact ((id_mem_removed_iff linked.metricIds _ stored).trans decide_eq_true_iff).symm
  have executions : s.rows.executions.filter (fun r => r.metricId ≠ id.text) =
      (s.removeMetrics fun m => m.id = id).executions.map executionRowOf := by
    have mapped : s.rows.executions.filter (fun r => r.metricId ≠ id.text) =
        (s.executions.filter fun e => !decide (e.metricId = id)).map executionRowOf := by
      rw [← otherExecutions]
      exact List.filter_map
    rw [mapped, List.filter_congr gone]
    rfl
  unfold RelationalStore.deleteMetric deleteMetric
  change s.mirror.writeWhere (s.rows.metrics.any fun r => r.id = id.text)
    { s.rows with
      metrics := s.rows.metrics.filter fun r => r.id ≠ id.text
      executions := s.rows.executions.filter fun r => r.metricId ≠ id.text } = _
  rw [present, metrics, executions]
  exact s.mirror_writeWhere rfl rfl

/-! ### Executions -/

theorem mirror_listMetricExecutions {s : MemoryStore} (chronological : s.Chronological) :
    RelationalStore.listMetricExecutions s.mirror =
      (listMetricExecutions s).map (List.map MetricExecution.settled) := by
  have ordered := chronological.executions.mergeSort_rows executionRowOf ExecutionRow.createdAt
    fun _ _ => rfl
  have read : (s.executions.map executionRowOf).mapM ExecutionRow.toExecution =
      .ok (s.executions.map MetricExecution.settled) :=
    Parsed.mapM_map fun e member => ExecutionRow.toExecution_ofExecution
      (chronological.executions.common _ (List.mem_map_of_mem member)) e.metricId
  apply s.mirror_whenOpen
  change Database.parsed (((s.executions.map executionRowOf).mergeSort _).mapM _) = _
  rw [ordered, read]
  rfl

theorem mirror_findMetricExecution {s : MemoryStore} (chronological : s.Chronological)
    (metricId : EntityId) :
    RelationalStore.findMetricExecution metricId s.mirror =
      (findMetricExecution metricId s).map (Option.map MetricExecution.settled) := by
  have search : s.mirror.database.executions.find? (fun r => r.metricId = metricId.text) =
      (s.executionFor metricId).map executionRowOf := s.rows_executionFor metricId
  apply s.mirror_whenOpen
  rw [search]
  cases found : s.executionFor metricId with
  | none => rfl
  | some e =>
      have common := chronological.executions.common _
        (List.mem_map_of_mem (executionFor_names found).1)
      have read : (executionRowOf e).toExecution = .ok e.settled :=
        ExecutionRow.toExecution_ofExecution common e.metricId
      change (Database.parsed (executionRowOf e).toExecution).map some = _
      rw [read]
      rfl

theorem mirror_updateMetricExecution (s : MemoryStore) (e : MetricExecution) :
    RelationalStore.updateMetricExecution e s.mirror =
      (updateMetricExecution e s).map mirrorFound := by
  have wanted : (fun r : ExecutionRow => decide (r.id = e.id.text)) ∘ executionRowOf =
      fun row => decide (row.id = e.id) :=
    funext fun row => EntityId.decide_text row.id e.id
  have same : (fun r : ExecutionRow =>
      { r with lastValue := Column.numberText e.lastValue, status := e.status.name }) ∘
        executionRowOf = executionRowOf ∘ fun row => row.withStateOf e := rfl
  have updated : Store.updateFirst _ _ s.mirror.database.executions = _ :=
    Store.updateFirst_map wanted same s.executions
  unfold RelationalStore.updateMetricExecution updateMetricExecution
  rw [updated]
  exact s.mirror_writeWhere rfl rfl

end MemoryStore

end RolloutWatch

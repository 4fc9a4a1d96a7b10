import RolloutWatch.Proofs.Relational.Entries
import RolloutWatch.Proofs.Text.Order

/-!
What the listings of a store show. Whatever operations have led to it, a listing of data sources
shows the live ones of a workspace, each once, by creation and name, and a database lists its groups
and its executions by creation. A database compares texts of times, which are in the order of the
times in common years.
-/

namespace RolloutWatch

def StoreOperation.InCommonYears : StoreOperation → Prop
  | .insertDataSource source => source.createdAt.InCommonYears
  | .insertMetricsGroup g => g.InCommonYears
  | .insertMetric m => m.createdAt.InCommonYears ∧ m.execution.createdAt.InCommonYears
  | _ => True

instance (operation : StoreOperation) : Decidable operation.InCommonYears := by
  unfold StoreOperation.InCommonYears
  cases operation <;> infer_instance

/-- The metric as its rows give it: the execution belongs to it, and numbers are settled. -/
def Metric.fromRows (m : Metric) : Metric :=
  { m.settled with execution := { m.execution.settled with metricId := m.id } }

namespace Contents

/-! ### Times -/

structure InCommonYears (c : Contents) : Prop where
  sources : ∀ source ∈ c.sources, source.createdAt.InCommonYears
  groups : ∀ g ∈ c.groups, g.createdAt.InCommonYears
  metrics : ∀ m ∈ c.metrics, m.createdAt.InCommonYears ∧ m.execution.createdAt.InCommonYears

theorem empty_inCommonYears : empty.InCommonYears :=
  { sources := fun _ member => absurd member List.not_mem_nil
    groups := fun _ member => absurd member List.not_mem_nil
    metrics := fun _ member => absurd member List.not_mem_nil }

theorem forall_changeWhere {α : Type} {p : α → Bool} {change : α → α} {property : α → Prop}
    {items : List α} (holds : ∀ a ∈ items, property a)
    (keeps : ∀ a, property a → property (change a)) :
    ∀ a ∈ changeWhere p change items, property a := by
  intro a member
  obtain ⟨before, stored, rfl⟩ := List.mem_map.mp member
  split
  · exact keeps before (holds before stored)
  · exact holds before stored

theorem forall_append {α : Type} {property : α → Prop} {items added : List α}
    (holds : ∀ a ∈ items, property a) (new : ∀ a ∈ added, property a) :
    ∀ a ∈ items ++ added, property a :=
  List.forall_mem_append.mpr ⟨holds, new⟩

theorem InCommonYears.after {c : Contents} (common : c.InCommonYears)
    {operation : StoreOperation} (permitted : operation.InCommonYears) :
    (c.after operation).InCommonYears := by
  cases operation with
  | insertDataSource source =>
      exact
        { common with
          sources := forall_append common.sources (List.forall_mem_singleton.mpr permitted) }
  | setDataSourceHealth id health =>
      exact { common with sources := forall_changeWhere common.sources fun _ time => time }
  | softDeleteDataSource id deletedAt =>
      exact { common with sources := forall_changeWhere common.sources fun _ time => time }
  | insertMetricsGroup g =>
      exact
        { common with
          groups := forall_append common.groups (List.forall_mem_singleton.mpr permitted.1)
          metrics := forall_append common.metrics permitted.2 }
  | updateMetricsGroup id update =>
      exact { common with groups := forall_changeWhere common.groups fun _ time => time }
  | deleteMetricsGroup id =>
      exact
        { common with
          groups := fun g member => common.groups g (List.mem_of_mem_filter member)
          metrics := fun m member => common.metrics m (List.mem_of_mem_filter member) }
  | insertMetric m =>
      exact
        { common with
          metrics := forall_append common.metrics (List.forall_mem_singleton.mpr permitted) }
  | updateMetric m =>
      exact { common with metrics := forall_changeWhere common.metrics fun _ times => times }
  | deleteMetric id =>
      exact
        { common with
          metrics := fun m member => common.metrics m (List.mem_of_mem_filter member) }
  | updateMetricExecution e =>
      exact { common with metrics := forall_changeWhere common.metrics fun _ times => times }
  | close => exact common

/-! ### What listings show -/

/-- The listing shows the live sources of the workspace with the health, if one is asked for: none
but these, each once, by their times of creation and then by the bytes of their names. -/
structure ListsSources (c : Contents) (workspaceId : EntityId) (health : Option Health)
    (listed : List DataSource) : Prop where
  complete : ∀ source, source ∈ listed ↔
    source ∈ c.sources ∧ source.deletedAt = none ∧ source.workspaceId = workspaceId ∧
      ∀ h, health = some h → source.health = h
  once : (listed.map DataSource.id).Nodup
  sorted : listed.Pairwise fun a b =>
    a.createdAt.before b.createdAt = true ∨
      a.createdAt = b.createdAt ∧
        Utf8.lessThan (Utf8.ofString b.name) (Utf8.ofString a.name) = false

def fullGroup (c : Contents) (g : MetricsGroup) : MetricsGroup :=
  MetricsGroup.inTimeOrder
    { g with
      metrics := (c.metrics.filter fun m => m.metricsGroupId = g.id).map Metric.fromRows }

theorem isListed_iff {workspaceId : EntityId} {health : Option Health} {source : DataSource} :
    MemoryStore.isListed workspaceId health source = true ↔
      source.deletedAt = none ∧ source.workspaceId = workspaceId ∧
        ∀ h, health = some h → source.health = h := by
  unfold MemoryStore.isListed DataSource.isDeleted
  cases health with
  | none =>
      simp only [Bool.and_eq_true, Bool.not_eq_true', Option.isSome_eq_false_iff,
        Option.isNone_iff_eq_none, decide_eq_true_eq, and_true, reduceCtorEq, false_implies,
        implies_true]
  | some h =>
      simp only [Bool.and_eq_true, Bool.not_eq_true', Option.isSome_eq_false_iff,
        Option.isNone_iff_eq_none, decide_eq_true_eq, Option.some.injEq, forall_eq', and_assoc]

theorem listsSources {c : Contents} (distinct : (c.sources.map DataSource.id).Nodup)
    (workspaceId : EntityId) (health : Option Health) :
    c.ListsSources workspaceId health
      ((c.sources.filter (MemoryStore.isListed workspaceId health)).mergeSort
        MemoryStore.listedBefore) where
  complete source := by
    rw [(List.mergeSort_perm _ _).mem_iff, List.mem_filter, isListed_iff]
  once := by
    rw [((List.mergeSort_perm _ _).map DataSource.id).nodup_iff]
    exact distinct.sublist (List.filter_sublist.map _)
  sorted := by
    refine (MemoryStore.listedBefore_comparesBy.pairwise_mergeSort _).imp ?_
    intro a b listed
    unfold MemoryStore.listedBefore at listed
    rw [Bool.or_eq_true, Bool.and_eq_true, Bool.not_eq_true', decide_eq_true_eq] at listed
    cases earlier : a.createdAt.before b.createdAt with
    | true => exact .inl rfl
    | false =>
        obtain ⟨notAfter, named⟩ := listed.resolve_left (by rw [earlier]; decide)
        refine .inr ⟨Instant.eq_of_not_before earlier notAfter, ?_⟩
        rw [Utf8.lessThan_ofString]
        exact decide_eq_false (not_lt.mpr named)

/-! ### Reading in common years -/

variable {c : Contents}

theorem mergeSort_textNotLater {α : Type} {time : α → Instant} {items : List α}
    (common : ∀ a ∈ items, (time a).InCommonYears) :
    items.mergeSort (textNotLater time) = items.mergeSort (notLater time) := by
  apply mergeSort_congr
  intro a aMember b bMember
  unfold textNotLater notLater
  rw [Bool.eq_iff_iff, decide_eq_true_eq, Bool.not_eq_true']
  exact Column.instantText_le_iff (common a aMember) (common b bMember)

theorem readSource_of_live {source : DataSource} (common : source.createdAt.InCommonYears)
    (live : source.isDeleted = false) : readSource source = .ok source :=
  MemoryStore.toSource_of_live common live

theorem readExecution_of_common {m : Metric} (common : m.execution.createdAt.InCommonYears) :
    readExecution m = .ok m.fromRows.execution :=
  ExecutionRow.toExecution_ofExecution common m.id

theorem readMetric_of_common {m : Metric} (common : m.createdAt.InCommonYears)
    (executionCommon : m.execution.createdAt.InCommonYears) : readMetric m = .ok m.fromRows :=
  MetricRow.toMetric_ofMetric common executionCommon

theorem metricsOf_of_common (common : c.InCommonYears) (g : MetricsGroup) :
    c.metricsOf g.id = .ok (c.fullGroup g).metrics := by
  have members : ∀ m ∈ c.metrics.filter (fun m => m.metricsGroupId = g.id), m ∈ c.metrics :=
    fun m member => List.mem_of_mem_filter member
  have viewed : ((c.metrics.filter fun m => m.metricsGroupId = g.id).mergeSort
      (notLater Metric.createdAt)).map Metric.fromRows = (c.fullGroup g).metrics := by
    apply List.map_mergeSort
    intro a _ b _
    rfl
  unfold metricsOf
  rw [mergeSort_textNotLater fun m member => (common.metrics m (members m member)).1, ← viewed]
  apply Parsed.mapM_each
  intro m member
  have times := common.metrics m (members m ((List.mergeSort_perm _ _).subset member))
  exact readMetric_of_common times.1 times.2

theorem readGroups_of_common (common : c.InCommonYears) {gs : List MetricsGroup}
    (stored : ∀ g ∈ gs, g ∈ c.groups) : c.readGroups gs = .ok (gs.map c.fullGroup) := by
  have bare : gs.mapM readBare = .ok (gs.map fun g => { g with metrics := [] }) :=
    Parsed.mapM_each fun g member => GroupRow.toGroup_ofGroup (common.groups g (stored g member)) []
  have full : (gs.map fun g => { g with metrics := [] }).mapM (fun g : MetricsGroup => do
      let metrics ← c.metricsOf g.id
      pure { g with metrics }) = .ok (gs.map c.fullGroup) := by
    apply Parsed.mapM_map
    intro g _
    have metrics := metricsOf_of_common common g
    simp only [metrics]
    rfl
  unfold readGroups
  rw [bare]
  exact full

end Contents

/-! ### Listings of a database -/

namespace RelationalStore

open Database Contents

variable {s : RelationalStore} {c : Contents}

theorem Operated.inCommonYears (operated : Operated StoreOperation.InCommonYears s c) :
    c.InCommonYears :=
  @Store.Operated.invariant RelationalStore _ _ _ _ (fun _ c => c.InCommonYears)
    empty_inCommonYears (fun _ common permitted _ => common.after permitted)
    (fun common _ => common) s c operated

theorem Keeps.listDataSources_of_common (keeps : Keeps s c) (common : c.InCommonYears)
    (workspaceId : EntityId) (health : Option Health) :
    RelationalStore.listDataSources workspaceId health s =
      s.whenOpen (.ok ((c.sources.filter (MemoryStore.isListed workspaceId health)).mergeSort
        MemoryStore.listedBefore)) := by
  have members : ∀ source ∈ c.sources.filter (MemoryStore.isListed workspaceId health),
      source ∈ c.sources := fun source member => List.mem_of_mem_filter member
  have ordered : ((c.sources.filter (MemoryStore.isListed workspaceId health)).mergeSort
      sourceListedBefore) =
        (c.sources.filter (MemoryStore.isListed workspaceId health)).mergeSort
          MemoryStore.listedBefore := by
    apply mergeSort_congr
    intro a aMember b bMember
    exact (MemoryStore.listedBefore_ofSource (common.sources a (members a aMember))
      (common.sources b (members b bMember))).symm
  have read : ((c.sources.filter (MemoryStore.isListed workspaceId health)).mergeSort
      MemoryStore.listedBefore).mapM readSource =
        .ok (((c.sources.filter (MemoryStore.isListed workspaceId health)).mergeSort
          MemoryStore.listedBefore).map id) := by
    apply Parsed.mapM_each
    intro source member
    obtain ⟨stored, listed⟩ := List.mem_filter.mp ((List.mergeSort_perm _ _).subset member)
    have live : source.isDeleted = false := by
      unfold DataSource.isDeleted
      rw [(isListed_iff.mp listed).1]
      rfl
    exact readSource_of_live (common.sources source stored) live
  rw [keeps.listDataSources, ordered, read, List.map_id]
  rfl

theorem Keeps.listMetricsGroups_of_common (keeps : Keeps s c) (common : c.InCommonYears) :
    RelationalStore.listMetricsGroups s =
      s.whenOpen (.ok ((c.groups.mergeSort (notLater MetricsGroup.createdAt)).map
        c.fullGroup)) := by
  have read := readGroups_of_common common fun g
    (member : g ∈ c.groups.mergeSort (notLater MetricsGroup.createdAt)) =>
      (List.mergeSort_perm _ _).subset member
  rw [keeps.listMetricsGroups, mergeSort_textNotLater common.groups, read]
  rfl

theorem Keeps.listMetricExecutions_of_common (keeps : Keeps s c) (common : c.InCommonYears) :
    RelationalStore.listMetricExecutions s =
      s.whenOpen (.ok ((c.metrics.mergeSort (notLater fun m => m.execution.createdAt)).map
        fun m => m.fromRows.execution)) := by
  have read : (c.metrics.mergeSort (notLater fun m => m.execution.createdAt)).mapM readExecution =
      .ok ((c.metrics.mergeSort (notLater fun m => m.execution.createdAt)).map
        fun m => m.fromRows.execution) := by
    apply Parsed.mapM_each
    intro m member
    have stored := (List.mergeSort_perm _ _).subset member
    exact readExecution_of_common (common.metrics m stored).2
  rw [keeps.listMetricExecutions, mergeSort_textNotLater fun m member => (common.metrics m member).2,
    read]
  rfl

end RelationalStore

namespace Store

open Contents

/-- Whatever operations have led to a store, its listings are complete, show nothing twice and
nothing else, and are in the order of creation. A closed store answers none of them. -/
theorem listings_complete_and_sorted :
    (∀ (allowed : StoreOperation → Prop) (s : MemoryStore) (c : Contents),
      MemoryStore.Operated allowed s c →
      ∀ (workspaceId : EntityId) (health : Option Health), ∃ listed,
        Store.listDataSources workspaceId health s = s.whenOpen (.ok listed) ∧
          c.ListsSources workspaceId health listed) ∧
    ∀ (s : RelationalStore) (c : Contents),
      RelationalStore.Operated StoreOperation.InCommonYears s c →
      (∀ (workspaceId : EntityId) (health : Option Health), ∃ listed,
        Store.listDataSources workspaceId health s = s.whenOpen (.ok listed) ∧
          c.ListsSources workspaceId health listed) ∧
      (∃ listed,
        Store.listMetricsGroups s = s.whenOpen (.ok listed) ∧
          ListedByTime MetricsGroup.createdAt (c.groups.map c.fullGroup) listed ∧
          (listed.map MetricsGroup.id).Nodup) ∧
      ∃ listed,
        Store.listMetricExecutions s = s.whenOpen (.ok listed) ∧
          ListedByTime MetricExecution.createdAt (c.metrics.map fun m => m.fromRows.execution)
            listed ∧
          (listed.map MetricExecution.id).Nodup := by
  constructor
  · intro allowed s c operated workspaceId health
    have keeps := operated.keeps
    refine ⟨_, ?_, listsSources (keeps.sources ▸ keeps.sourceIds) workspaceId health⟩
    rw [← keeps.sources]
    rfl
  · intro s c operated
    have keeps := operated.keeps
    have common := operated.inCommonYears
    refine ⟨fun workspaceId health => ?_, ?_, ?_⟩
    · exact ⟨_, keeps.listDataSources_of_common common workspaceId health,
        listsSources keeps.keyed.sources workspaceId health⟩
    · have listed : ListedByTime MetricsGroup.createdAt (c.groups.map c.fullGroup)
          ((c.groups.mergeSort (notLater MetricsGroup.createdAt)).map c.fullGroup) :=
        listedByTime_map (fun _ => rfl) c.groups
      refine ⟨_, keeps.listMetricsGroups_of_common common, listed, ?_⟩
      rw [(listed.complete.map MetricsGroup.id).nodup_iff, List.map_map]
      exact keeps.keyed.groups
    · have listed : ListedByTime MetricExecution.createdAt
          (c.metrics.map fun m => m.fromRows.execution)
          ((c.metrics.mergeSort (notLater fun m => m.execution.createdAt)).map
            fun m => m.fromRows.execution) := listedByTime_map (fun _ => rfl) c.metrics
      refine ⟨_, keeps.listMetricExecutions_of_common common, listed, ?_⟩
      rw [(listed.complete.map MetricExecution.id).nodup_iff, List.map_map]
      exact keeps.keyed.executions

end Store

/-! ### Listings of canaries -/

namespace Canary

def halfSecond : Instant :=
  { civil := { Instant.epoch.civil with nano := 500000000 }
    valid := by decide }

def source (id : Nat) (name : String) (createdAt : Instant) : DataSource :=
  { id := .ofNat id
    name
    workspaceId := .nil
    pluginSrc := "mock"
    sealedData := ""
    health := .healthy
    createdAt
    deletedAt := none }

def operations : List StoreOperation :=
  [.insertDataSource (source 11 "north" halfSecond),
    .insertDataSource (source 12 "east" halfSecond),
    .insertDataSource (source 13 "west" .epoch),
    .insertDataSource (source 14 "south" .epoch),
    .setDataSourceHealth (.ofNat 13) .unhealthy,
    .softDeleteDataSource (.ofNat 14) halfSecond,
    .insertMetricsGroup { group with createdAt := halfSecond },
    .insertMetricsGroup { group with id := .ofNat 6, metrics := [] }]

def inMemory : MemoryStore × Contents :=
  operations.foldl StoreOperation.record (.empty, .empty)

def inDatabase : RelationalStore × Contents :=
  operations.foldl StoreOperation.record (.onDatabase .empty, .empty)

end Canary

namespace Store

theorem canary_listings :
    (Canary.inDatabase.2.sources.length = 4 ∧ Canary.inDatabase.2.groups.length = 2 ∧
      Canary.inDatabase.2.metrics.length = 1) ∧
      (∃ listed,
        Store.listDataSources .nil none Canary.inMemory.1 = .ok listed ∧
          Canary.inMemory.2.ListsSources .nil none listed) ∧
      (∃ listed,
        Store.listDataSources .nil (some .unhealthy) Canary.inDatabase.1 = .ok listed ∧
          Canary.inDatabase.2.ListsSources .nil (some .unhealthy) listed) ∧
      (∃ listed,
        Store.listMetricsGroups Canary.inDatabase.1 = .ok listed ∧
          ListedByTime MetricsGroup.createdAt
            (Canary.inDatabase.2.groups.map Canary.inDatabase.2.fullGroup) listed) ∧
      ∃ listed,
        Store.listMetricExecutions Canary.inDatabase.1 = .ok listed ∧
          ListedByTime MetricExecution.createdAt
            (Canary.inDatabase.2.metrics.map fun m => m.fromRows.execution) listed := by
  have permitted : ∀ operation ∈ Canary.operations, operation.InCommonYears := by
    decide +kernel
  have memory : MemoryStore.Operated StoreOperation.InCommonYears Canary.inMemory.1
      Canary.inMemory.2 := .records Canary.operations permitted .started
  have database : RelationalStore.Operated StoreOperation.InCommonYears Canary.inDatabase.1
      Canary.inDatabase.2 := .records Canary.operations permitted .started
  have memoryOpen : Canary.inMemory.1.closed = false := by decide +kernel
  have databaseOpen : Canary.inDatabase.1.closed = false := by decide +kernel
  obtain ⟨inMemory, inDatabase⟩ := listings_complete_and_sorted
  obtain ⟨sources, groups, executions⟩ := inDatabase _ _ database
  obtain ⟨known, answered, listed⟩ := inMemory _ _ _ memory .nil none
  obtain ⟨rows, read, inOrder⟩ := sources .nil (some .unhealthy)
  obtain ⟨gs, readGroups, groupsInOrder, -⟩ := groups
  obtain ⟨es, readExecutions, executionsInOrder, -⟩ := executions
  rw [MemoryStore.whenOpen_of_open _ memoryOpen] at answered
  rw [RelationalStore.whenOpen_of_open _ databaseOpen] at read readGroups readExecutions
  exact ⟨by decide +kernel, ⟨known, answered, listed⟩, ⟨rows, read, inOrder⟩,
    ⟨gs, readGroups, groupsInOrder⟩, es, readExecutions, executionsInOrder⟩

end Store

end RolloutWatch

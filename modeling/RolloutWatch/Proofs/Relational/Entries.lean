import RolloutWatch.Proofs.Memory.Contents
import RolloutWatch.Proofs.Relational.Contents

/-!
The reads of the relational store in terms of the ledger. Every read is a search in the ledger, or
a sorted part of it, and each entry is read on its own: a metric from its row and from the row of
its execution, a group from its row and from its metrics.
-/

namespace RolloutWatch

namespace Contents

open Database

/-! ### Entries -/

def readSource (source : DataSource) : Parsed DataSource :=
  (SourceRow.ofSource source).toSource

def readExecution (m : Metric) : Parsed MetricExecution :=
  (executionRowFor m).toExecution

def readMetric (m : Metric) : Parsed Metric :=
  (MetricRow.ofMetric m).toMetric (executionRowFor m)

def readBare (g : MetricsGroup) : Parsed MetricsGroup :=
  (GroupRow.ofGroup g).toGroup []

def textNotLater {α : Type} (time : α → Instant) (a b : α) : Bool :=
  Column.instantText (time a) ≤ Column.instantText (time b)

def sourceListedBefore (a b : DataSource) : Bool :=
  RelationalStore.listedBefore (.ofSource a) (.ofSource b)

def metricsOf (c : Contents) (groupId : EntityId) : Parsed (List Metric) :=
  ((c.metrics.filter fun m => m.metricsGroupId = groupId).mergeSort
    (textNotLater Metric.createdAt)).mapM readMetric

def readGroups (c : Contents) (gs : List MetricsGroup) : Parsed (List MetricsGroup) := do
  let groups ← gs.mapM readBare
  groups.mapM fun g => do
    let metrics ← c.metricsOf g.id
    pure { g with metrics }

theorem sourceListedBefore_comparesBy :
    ComparesBy sourceListedBefore fun source =>
      toLex (Column.instantText source.createdAt, source.name) := by
  intro a b
  rw [Prod.Lex.le_iff]
  unfold sourceListedBefore RelationalStore.listedBefore SourceRow.ofSource
  simp only [Bool.or_eq_true, Bool.and_eq_true, decide_eq_true_eq, ofLex_toLex]

/-! ### Groups of rows -/

variable {c : Contents}

theorem Keyed.executionRow (keyed : c.Keyed) {m : Metric} (stored : m ∈ c.metrics) :
    c.rows.executions.find? (fun e => e.metricId = m.id.text) = some (executionRowFor m) := by
  have wanted : (fun e : ExecutionRow => decide (e.metricId = m.id.text)) ∘ executionRowFor =
      fun other => decide (other.id = m.id) :=
    funext fun other => EntityId.decide_text other.id m.id
  obtain ⟨other, found⟩ :=
    Store.exists_find_of_mem_keys Metric.id m.id c.metrics (List.mem_map_of_mem stored)
  obtain ⟨present, same⟩ := Store.find_some_key Metric.id found
  have equal := List.inj_on_of_nodup_map keyed.metrics present stored same
  unfold rows
  rw [List.find?_map, wanted, found, equal]
  rfl

theorem Keyed.join (keyed : c.Keyed) {ms : List Metric} (stored : ∀ m ∈ ms, m ∈ c.metrics) :
    (ms.map MetricRow.ofMetric).filterMap c.rows.join =
      ms.map fun m => (MetricRow.ofMetric m, executionRowFor m) := by
  rw [List.filterMap_map, ← List.filterMap_eq_map]
  apply List.filterMap_congr
  intro m member
  change (c.rows.executions.find? fun e => e.metricId = m.id.text).map _ = _
  rw [keyed.executionRow (stored m member)]
  rfl

theorem Keyed.metricsOf (keyed : c.Keyed) (groupId : EntityId) :
    c.rows.metricsOf groupId.text = c.metricsOf groupId := by
  have wanted : (fun r : MetricRow => decide (r.metricsGroupId = groupId.text)) ∘
      MetricRow.ofMetric = fun m => decide (m.metricsGroupId = groupId) :=
    funext fun m => EntityId.decide_text m.metricsGroupId groupId
  have chosen : c.rows.metrics.filter (fun r => r.metricsGroupId = groupId.text) =
      (c.metrics.filter fun m => m.metricsGroupId = groupId).map .ofMetric := by
    rw [← wanted]
    exact List.filter_map
  have ordered : ((c.metrics.filter fun m => m.metricsGroupId = groupId).map
      fun m => (MetricRow.ofMetric m, executionRowFor m)).mergeSort
        (fun a b => a.1.createdAt ≤ b.1.createdAt) =
      ((c.metrics.filter fun m => m.metricsGroupId = groupId).mergeSort
        (textNotLater Metric.createdAt)).map
          fun m => (MetricRow.ofMetric m, executionRowFor m) := by
    symm
    apply List.map_mergeSort
    intro a _ b _
    rfl
  unfold Database.metricsOf Contents.metricsOf
  simp only [chosen]
  rw [keyed.join fun m member => List.mem_of_mem_filter member, ordered, List.mapM_map]
  rfl

theorem Keyed.readGroups (keyed : c.Keyed) (gs : List MetricsGroup) :
    c.rows.readGroups (gs.map .ofGroup) = c.readGroups gs := by
  unfold Database.readGroups Contents.readGroups
  rw [List.mapM_map]
  simp only [keyed.metricsOf]
  rfl

end Contents

namespace RelationalStore

open Database Contents

variable {s : RelationalStore} {c : Contents}

theorem Keeps.findDataSource (keeps : Keeps s c) (id : EntityId) :
    findDataSource id s =
      s.whenOpen (readFound readSource (c.sources.find? (DataSource.isLive id))) := by
  have search : s.database.sources.find? (fun r => r.id = id.text && isLive r) =
      (c.sources.find? (DataSource.isLive id)).map .ofSource := by
    rw [keeps.tables]
    refine List.find?_map.trans ?_
    rw [MemoryStore.liveId_ofSource]
    rfl
  unfold RelationalStore.findDataSource
  rw [search]
  cases c.sources.find? (DataSource.isLive id) <;> rfl

theorem Keeps.listDataSources (keeps : Keeps s c) (workspaceId : EntityId)
    (health : Option Health) :
    listDataSources workspaceId health s =
      s.whenOpen (parsed (((c.sources.filter (MemoryStore.isListed workspaceId health)).mergeSort
        sourceListedBefore).mapM readSource)) := by
  have wanted : isListed workspaceId health ∘ SourceRow.ofSource =
      MemoryStore.isListed workspaceId health :=
    funext (MemoryStore.isListed_ofSource workspaceId health)
  have listed : s.database.sources.filter (isListed workspaceId health) =
      (c.sources.filter (MemoryStore.isListed workspaceId health)).map .ofSource := by
    rw [keeps.tables, ← wanted]
    exact List.filter_map
  have ordered : ((c.sources.filter (MemoryStore.isListed workspaceId health)).map
      SourceRow.ofSource).mergeSort listedBefore =
        ((c.sources.filter (MemoryStore.isListed workspaceId health)).mergeSort
          sourceListedBefore).map .ofSource := by
    symm
    apply List.map_mergeSort
    intro a _ b _
    rfl
  unfold RelationalStore.listDataSources
  rw [listed, ordered, List.mapM_map]
  rfl

theorem Keeps.findMetricsGroup (keeps : Keeps s c) (id : EntityId) :
    findMetricsGroup id s =
      s.whenOpen ((parsed (c.readGroups (c.groups.filter fun g => g.id = id))).map
        List.head?) := by
  have chosen : s.database.groups.filter (fun r => r.id = id.text) =
      (c.groups.filter fun g => g.id = id).map .ofGroup := by
    rw [keeps.tables, ← MemoryStore.groupId_ofGroup]
    exact List.filter_map
  unfold RelationalStore.findMetricsGroup
  rw [chosen, keeps.tables, keeps.keyed.readGroups]

theorem Keeps.listMetricsGroups (keeps : Keeps s c) :
    listMetricsGroups s =
      s.whenOpen (parsed (c.readGroups
        (c.groups.mergeSort (textNotLater MetricsGroup.createdAt)))) := by
  have ordered : (c.groups.map GroupRow.ofGroup).mergeSort (fun a b => a.createdAt ≤ b.createdAt) =
      (c.groups.mergeSort (textNotLater MetricsGroup.createdAt)).map .ofGroup := by
    symm
    apply List.map_mergeSort
    intro a _ b _
    rfl
  unfold RelationalStore.listMetricsGroups
  rw [keeps.tables]
  change s.whenOpen (parsed (c.rows.readGroups ((c.groups.map GroupRow.ofGroup).mergeSort _))) = _
  rw [ordered, keeps.keyed.readGroups]

theorem Keeps.findMetric (keeps : Keeps s c) (id : EntityId) :
    findMetric id s =
      s.whenOpen (readFound readMetric (c.metrics.find? fun m => m.id = id)) := by
  have chosen : c.rows.metrics.filter (fun r => r.id = id.text) =
      (c.metrics.filter fun m => m.id = id).map .ofMetric := by
    rw [← MemoryStore.metricId_ofMetric]
    exact List.filter_map
  have joined := keeps.keyed.join fun m (member : m ∈ c.metrics.filter fun m => m.id = id) =>
    List.mem_of_mem_filter member
  have first : c.metrics.find? (fun m => m.id = id) =
      (c.metrics.filter fun m => m.id = id).head? := List.head?_filter.symm
  unfold RelationalStore.findMetric
  rw [keeps.tables, chosen, joined, first]
  cases c.metrics.filter fun m => m.id = id <;> rfl

theorem Keeps.findMetricExecution (keeps : Keeps s c) (metricId : EntityId) :
    findMetricExecution metricId s =
      s.whenOpen (readFound readExecution (c.metrics.find? fun m => m.id = metricId)) := by
  have wanted : (fun r : ExecutionRow => decide (r.metricId = metricId.text)) ∘
      executionRowFor = fun m => decide (m.id = metricId) :=
    funext fun m => EntityId.decide_text m.id metricId
  have search : s.database.executions.find? (fun r => r.metricId = metricId.text) =
      (c.metrics.find? fun m => m.id = metricId).map executionRowFor := by
    rw [keeps.tables, ← wanted]
    exact List.find?_map
  unfold RelationalStore.findMetricExecution
  rw [search]
  cases c.metrics.find? fun m => m.id = metricId <;> rfl

theorem Keeps.listMetricExecutions (keeps : Keeps s c) :
    listMetricExecutions s =
      s.whenOpen (parsed ((c.metrics.mergeSort
        (textNotLater fun m => m.execution.createdAt)).mapM readExecution)) := by
  have ordered : (c.metrics.map executionRowFor).mergeSort (fun a b => a.createdAt ≤ b.createdAt) =
      (c.metrics.mergeSort (textNotLater fun m => m.execution.createdAt)).map
        executionRowFor := by
    symm
    apply List.map_mergeSort
    intro a _ b _
    rfl
  unfold RelationalStore.listMetricExecutions
  rw [keeps.tables]
  change s.whenOpen (parsed (((c.metrics.map executionRowFor).mergeSort _).mapM _)) = _
  rw [ordered, List.mapM_map]
  rfl

end RelationalStore

end RolloutWatch

import RolloutWatch.Proofs.Relational.Catalogue
import RolloutWatch.Proofs.Relational.Reading
import RolloutWatch.Proofs.Store.Operation

/-!
The relational store after any operations. Its tables are the rows of the ledger, with a row of an
execution for every row of a metric, and whatever comes to be stored has an identifier that nothing
of its kind has yet.
-/

namespace RolloutWatch

namespace Contents

open Database

/-- The tables that hold the contents. -/
def rows (c : Contents) : Database :=
  { sources := c.sources.map .ofSource
    groups := c.groups.map .ofGroup
    metrics := c.metrics.map .ofMetric
    executions := c.metrics.map executionRowFor }

structure Keyed (c : Contents) : Prop where
  sources : (c.sources.map DataSource.id).Nodup
  groups : (c.groups.map MetricsGroup.id).Nodup
  metrics : (c.metrics.map Metric.id).Nodup
  executions : (c.metrics.map fun m => m.execution.id).Nodup

/-! ### Keys -/

theorem nodup_texts {α : Type} {key : α → EntityId} {items : List α} :
    (items.map fun a => (key a).text).Nodup ↔ (items.map key).Nodup := by
  have texts : (items.map fun a => (key a).text) = (items.map key).map EntityId.text := by
    rw [List.map_map]
    rfl
  rw [texts, List.nodup_map_iff fun _ _ same => EntityId.text_injective same]

theorem metricIds_rows (c : Contents) :
    c.rows.metrics.map MetricRow.id = c.metrics.map fun m => m.id.text := by
  unfold rows
  rw [List.map_map]
  rfl

theorem executionIds_rows (c : Contents) :
    c.rows.executions.map ExecutionRow.id = c.metrics.map fun m => m.execution.id.text := by
  unfold rows
  rw [List.map_map]
  rfl

theorem executionMetrics_rows (c : Contents) :
    c.rows.executions.map ExecutionRow.metricId = c.metrics.map fun m => m.id.text := by
  unfold rows
  rw [List.map_map]
  rfl

theorem Keyed.uniqueKeys {c : Contents} (keyed : c.Keyed) : UniqueKeys c.rows where
  metricIds := by
    rw [metricIds_rows]
    exact nodup_texts.mpr keyed.metrics
  executionIds := by
    rw [executionIds_rows]
    exact nodup_texts.mpr keyed.executions
  executionMetrics := by
    rw [executionMetrics_rows]
    exact nodup_texts.mpr keyed.metrics
  metricTexts r member := by
    obtain ⟨m, -, rfl⟩ := List.mem_map.mp member
    exact ⟨m.id, rfl⟩
  executionTexts r member := by
    obtain ⟨m, -, rfl⟩ := List.mem_map.mp member
    exact ⟨m.execution.id, rfl⟩

/-- Metrics may come to be stored where the tables have found their keys to be new. -/
theorem Keyed.of_uniqueKeys {c : Contents} (sources : (c.sources.map DataSource.id).Nodup)
    (groups : (c.groups.map MetricsGroup.id).Nodup) (keys : UniqueKeys c.rows) : c.Keyed where
  sources := sources
  groups := groups
  metrics := by
    rw [← nodup_texts, ← metricIds_rows]
    exact keys.metricIds
  executions := by
    rw [← nodup_texts, ← executionIds_rows]
    exact keys.executionIds

theorem Keyed.sublist {c fewer : Contents} (keyed : c.Keyed)
    (sources : fewer.sources.Sublist c.sources) (groups : fewer.groups.Sublist c.groups)
    (metrics : fewer.metrics.Sublist c.metrics) : fewer.Keyed :=
  { sources := keyed.sources.sublist (sources.map _)
    groups := keyed.groups.sublist (groups.map _)
    metrics := keyed.metrics.sublist (metrics.map _)
    executions := keyed.executions.sublist (metrics.map _) }

/-! ### Changes of rows -/

section

variable {α β γ : Type} {p : α → Bool} {change : α → α}

/-- What a change leaves alone in an item is left alone in all of them. -/
theorem map_changeWhere {view : α → β} (same : ∀ a, view (change a) = view a) (items : List α) :
    (changeWhere p change items).map view = items.map view := by
  unfold changeWhere
  rw [List.map_map]
  apply List.map_congr_left
  intro a _
  rw [Function.comp_apply]
  split
  · exact same a
  · rfl

theorem updateFirst_rows {q : β → Bool} {rewrite : β → β} {row : α → β} {key : α → γ}
    (wanted : q ∘ row = p) (same : rewrite ∘ row = row ∘ change) (only : γ)
    (meant : ∀ a, p a = true → key a = only) {items : List α} (distinct : (items.map key).Nodup) :
    (Store.updateFirst q rewrite (items.map row)).2 = (changeWhere p change items).map row := by
  rw [Store.updateFirst_map wanted same, Store.updateFirst_eq_map key only meant change distinct]
  rfl

end

/-- The rows of metrics that go, and of their executions, leave those of the metrics that stay. -/
theorem rows_removeMetrics {c : Contents} (keyed : c.Keyed) {gone : Metric → Bool}
    {goneRow : MetricRow → Bool} (same : goneRow ∘ MetricRow.ofMetric = gone) :
    RelationalStore.removeMetrics goneRow c.rows =
      { c with metrics := c.metrics.filter fun m => !gone m }.rows := by
  have removed : (c.rows.metrics.filter goneRow).map MetricRow.id =
      (c.metrics.filter gone).map fun m => m.id.text := by
    unfold rows
    rw [List.filter_map, same, List.map_map]
    rfl
  have metrics : c.rows.metrics.filter (fun r => !goneRow r) =
      (c.metrics.filter fun m => !gone m).map .ofMetric := by
    rw [← same]
    exact List.filter_map
  have executions : c.rows.executions.filter (fun e =>
      !((c.metrics.filter gone).map fun m => m.id.text).contains e.metricId) =
        (c.metrics.filter fun m => !gone m).map executionRowFor := by
    unfold rows
    rw [List.filter_map]
    refine congrArg (List.map _) (List.filter_congr fun m member => ?_)
    have named : (executionRowFor m).metricId ∈ (c.metrics.filter gone).map (fun m => m.id.text) ↔
        gone m = true :=
      Store.mem_keys_filter _ (nodup_texts.mpr keyed.metrics) member gone
    rw [Function.comp_apply, List.contains_eq_mem]
    refine congrArg (!·) ?_
    rw [Bool.eq_iff_iff, decide_eq_true_eq]
    exact named
  unfold RelationalStore.removeMetrics
  simp only [removed, metrics, executions]
  rfl

end Contents

namespace RelationalStore

open Database

/-- What operations on a new database lead to. A database may be opened again at any time. -/
def Operated (allowed : StoreOperation → Prop) : RelationalStore → Contents → Prop :=
  Store.Operated (onDatabase .empty) (fun s again => again = onDatabase s.database) allowed

structure Keeps (s : RelationalStore) (c : Contents) : Prop where
  tables : s.database = c.rows
  keyed : c.Keyed

theorem empty_keeps : Keeps (onDatabase .empty) .empty :=
  { tables := rfl
    keyed :=
      { sources := List.nodup_nil
        groups := List.nodup_nil
        metrics := List.nodup_nil
        executions := List.nodup_nil } }

variable {s after : RelationalStore} {c : Contents}

theorem Keeps.changeSource (keeps : Keeps s c) {id : EntityId} (change : DataSource → DataSource)
    {rewrite : SourceRow → SourceRow}
    (same : rewrite ∘ SourceRow.ofSource = SourceRow.ofSource ∘ change)
    (keepsId : ∀ source, (change source).id = source.id) {found : Bool}
    (written : s.changeSource id rewrite = .ok (found, after)) :
    Keeps after
      { c with sources := Contents.changeWhere (DataSource.isLive id) change c.sources } := by
  obtain ⟨rfl, -⟩ := writeWhere_ok written
  have meant : ∀ source, DataSource.isLive id source = true → source.id = id :=
    fun source live => of_decide_eq_true ((Bool.and_eq_true _ _).mp live).1
  have sources := Contents.updateFirst_rows (MemoryStore.liveId_ofSource id) same id meant
    keeps.keyed.sources
  refine { tables := ?_, keyed := { keeps.keyed with sources := ?_ } }
  · simp only [keeps.tables]
    exact congrArg (fun sources => { c.rows with sources }) sources
  · rw [Contents.map_changeWhere keepsId]
    exact keeps.keyed.sources

theorem Keeps.insertDataSource (keeps : Keeps s c) {source : DataSource}
    (done : insertDataSource source s = .ok after) :
    Keeps after (c.after (.insertDataSource source)) := by
  obtain ⟨database, inserted, rfl⟩ := write_ok done
  unfold insertSource at inserted
  split at inserted
  · cases inserted
  · rename_i untaken
    cases inserted
    refine { tables := ?_, keyed := { keeps.keyed with sources := ?_ } }
    · simp only [keeps.tables]
      unfold Contents.after Contents.rows
      simp only [List.map_append, List.map_cons, List.map_nil]
    · refine Store.nodup_concat keeps.keyed.sources fun stored => ?_
      obtain ⟨other, present, same⟩ := List.mem_map.mp stored
      apply untaken
      rw [keeps.tables]
      exact List.any_eq_true.mpr
        ⟨_, List.mem_map_of_mem present, decide_eq_true (congrArg EntityId.text same)⟩

theorem Keeps.insertMetricsGroup (keeps : Keeps s c) {g : MetricsGroup}
    (done : insertMetricsGroup g s = .ok after) :
    Keeps after (c.after (.insertMetricsGroup g)) := by
  obtain ⟨groups, database, inserted, same⟩ := insertMetricsGroup_ok done
  obtain ⟨rfl, anew, -, -⟩ := insertMetricsGroup_tables done
  have database_eq : s.database.addGroup g = database := congrArg RelationalStore.database same
  have tables : s.database.addGroup g = (c.after (.insertMetricsGroup g)).rows := by
    rw [keeps.tables]
    unfold addGroup addMetrics Contents.after Contents.rows
    simp only [List.map_append, List.map_cons, List.map_nil]
    rfl
  refine { tables := tables, keyed := .of_uniqueKeys keeps.keyed.sources ?_ ?_ }
  · refine Store.nodup_concat keeps.keyed.groups fun stored => ?_
    obtain ⟨other, present, sameId⟩ := List.mem_map.mp stored
    have row : GroupRow.ofGroup other ∈ s.database.groups := by
      rw [keeps.tables]
      exact List.mem_map_of_mem present
    exact anew _ row (congrArg EntityId.text sameId)
  · have grouped : UniqueKeys { s.database with groups } := by
      rw [keeps.tables]
      exact keeps.keyed.uniqueKeys.sublist (List.Sublist.refl _) (List.Sublist.refl _)
    rw [← tables, database_eq]
    exact grouped.insertMetrics inserted

theorem Keeps.insertMetric (keeps : Keeps s c) {m : Metric} (done : insertMetric m s = .ok after) :
    Keeps after (c.after (.insertMetric m)) := by
  obtain ⟨database, inserted, same⟩ := insertMetric_ok done
  obtain ⟨rfl, -, -⟩ := insertMetric_tables done
  have database_eq : s.database.addMetrics [m] = database := congrArg RelationalStore.database same
  have tables : s.database.addMetrics [m] = (c.after (.insertMetric m)).rows := by
    rw [keeps.tables]
    unfold addMetrics Contents.after Contents.rows
    simp only [List.map_append, List.map_cons, List.map_nil]
  refine { tables := tables, keyed := .of_uniqueKeys keeps.keyed.sources keeps.keyed.groups ?_ }
  have keys : UniqueKeys s.database := by
    rw [keeps.tables]
    exact keeps.keyed.uniqueKeys
  rw [← tables, database_eq]
  exact keys.insertMetric inserted

theorem Keeps.updateMetricsGroup (keeps : Keeps s c) {id : EntityId} {u : MetricsGroupUpdate}
    {found : Bool} (written : updateMetricsGroup id u s = .ok (found, after)) :
    Keeps after (c.after (.updateMetricsGroup id u)) := by
  obtain ⟨rfl, -⟩ := writeWhere_ok written
  have same : (fun r : GroupRow => { r with name := u.name, circleId := u.circleId.text }) ∘
      GroupRow.ofGroup =
        GroupRow.ofGroup ∘ fun g => { g with name := u.name, circleId := u.circleId } := rfl
  have groups := Contents.updateFirst_rows (MemoryStore.groupId_ofGroup id) same id
    (fun g holds => of_decide_eq_true holds) keeps.keyed.groups
  refine { tables := ?_, keyed := { keeps.keyed with groups := ?_ } }
  · simp only [keeps.tables]
    exact congrArg (fun groups => { c.rows with groups }) groups
  · have ids : (c.after (.updateMetricsGroup id u)).groups.map MetricsGroup.id =
        c.groups.map MetricsGroup.id := by
      apply Contents.map_changeWhere
      intro g
      rfl
    rw [ids]
    exact keeps.keyed.groups

theorem Keeps.updateMetric (keeps : Keeps s c) {m : Metric} {found : Bool}
    (written : updateMetric m s = .ok (found, after)) :
    Keeps after (c.after (.updateMetric m)) := by
  obtain ⟨rfl, -⟩ := writeWhere_ok written
  have same : (fun r : MetricRow => r.withDefinitionOf m) ∘ MetricRow.ofMetric =
      MetricRow.ofMetric ∘ fun row => row.withDefinitionOf m := rfl
  have metrics := Contents.updateFirst_rows (MemoryStore.metricId_ofMetric m.id) same m.id
    (fun row holds => of_decide_eq_true holds) keeps.keyed.metrics
  have kept {β : Type} (view : Metric → β)
      (stays : ∀ row : Metric, view (row.withDefinitionOf m) = view row) :
      (c.after (.updateMetric m)).metrics.map view = c.metrics.map view :=
    Contents.map_changeWhere stays c.metrics
  refine
    { tables := ?_
      keyed := { keeps.keyed with metrics := ?_, executions := ?_ } }
  · have executions := kept executionRowFor fun _ => rfl
    simp only [keeps.tables]
    unfold Contents.rows at metrics ⊢
    rw [metrics, executions]
    rfl
  · rw [kept _ fun _ => rfl]
    exact keeps.keyed.metrics
  · rw [kept _ fun _ => rfl]
    exact keeps.keyed.executions

theorem Keeps.updateMetricExecution (keeps : Keeps s c) {e : MetricExecution} {found : Bool}
    (written : updateMetricExecution e s = .ok (found, after)) :
    Keeps after (c.after (.updateMetricExecution e)) := by
  obtain ⟨rfl, -⟩ := writeWhere_ok written
  have wanted : (fun r : ExecutionRow => decide (r.id = e.id.text)) ∘ executionRowFor =
      fun m => decide (m.execution.id = e.id) :=
    funext fun m => EntityId.decide_text m.execution.id e.id
  have same : (fun r : ExecutionRow =>
      { r with lastValue := Column.numberText e.lastValue, status := e.status.name }) ∘
        executionRowFor = executionRowFor ∘ Contents.changeExecution e := rfl
  have executions := Contents.updateFirst_rows wanted same e.id
    (fun m holds => of_decide_eq_true holds) keeps.keyed.executions
  have kept {β : Type} (view : Metric → β)
      (stays : ∀ m : Metric, view (Contents.changeExecution e m) = view m) :
      (c.after (.updateMetricExecution e)).metrics.map view = c.metrics.map view :=
    Contents.map_changeWhere stays c.metrics
  refine
    { tables := ?_
      keyed := { keeps.keyed with metrics := ?_, executions := ?_ } }
  · have metrics := kept MetricRow.ofMetric fun _ => rfl
    simp only [keeps.tables]
    unfold Contents.rows at executions ⊢
    rw [executions, metrics]
    rfl
  · rw [kept _ fun _ => rfl]
    exact keeps.keyed.metrics
  · rw [kept _ fun _ => rfl]
    exact keeps.keyed.executions

theorem Keeps.deleteMetricsGroup (keeps : Keeps s c) {id : EntityId} {found : Bool}
    (written : deleteMetricsGroup id s = .ok (found, after)) :
    Keeps after (c.after (.deleteMetricsGroup id)) := by
  obtain ⟨rfl, -⟩ := writeWhere_ok written
  have wanted : (fun r : MetricRow => decide (r.metricsGroupId = id.text)) ∘
      MetricRow.ofMetric = fun m => decide (m.metricsGroupId = id) :=
    funext fun m => EntityId.decide_text m.metricsGroupId id
  have others : (fun r : GroupRow => decide (r.id ≠ id.text)) ∘ GroupRow.ofGroup =
      fun g => decide (g.id ≠ id) := by
    funext g
    exact decide_eq_decide.mpr (not_congr (decide_eq_decide.mp (EntityId.decide_text g.id id)))
  have groups : c.rows.groups.filter (fun r => r.id ≠ id.text) =
      (c.groups.filter fun g => g.id ≠ id).map .ofGroup := by
    rw [← others]
    exact List.filter_map
  have metrics : (c.metrics.filter fun m => !decide (m.metricsGroupId = id)) =
      c.metrics.filter fun m => m.metricsGroupId ≠ id :=
    List.filter_congr fun m _ => decide_not.symm
  refine
    { tables := ?_
      keyed := keeps.keyed.sublist (List.Sublist.refl _) List.filter_sublist
        List.filter_sublist }
  simp only [keeps.tables]
  rw [Contents.rows_removeMetrics keeps.keyed wanted, metrics]
  exact congrArg
    (fun groups => { (c.after (.deleteMetricsGroup id)).rows with groups }) groups

theorem Keeps.deleteMetric (keeps : Keeps s c) {id : EntityId} {found : Bool}
    (written : deleteMetric id s = .ok (found, after)) :
    Keeps after (c.after (.deleteMetric id)) := by
  obtain ⟨rfl, -⟩ := writeWhere_ok written
  have others (key : Metric → String) (text : ∀ m : Metric, key m = m.id.text) :
      (fun m : Metric => decide (key m ≠ id.text)) = fun m => decide (m.id ≠ id) := by
    funext m
    rw [text]
    exact decide_eq_decide.mpr (not_congr (decide_eq_decide.mp (EntityId.decide_text m.id id)))
  have metrics : c.rows.metrics.filter (fun r => r.id ≠ id.text) =
      (c.metrics.filter fun m => m.id ≠ id).map .ofMetric := by
    rw [← others (fun m => (MetricRow.ofMetric m).id) fun _ => rfl]
    exact List.filter_map
  have executions : c.rows.executions.filter (fun r => r.metricId ≠ id.text) =
      (c.metrics.filter fun m => m.id ≠ id).map executionRowFor := by
    rw [← others (fun m => (executionRowFor m).metricId) fun _ => rfl]
    exact List.filter_map
  refine
    { tables := ?_
      keyed := keeps.keyed.sublist (List.Sublist.refl _) (List.Sublist.refl _)
        List.filter_sublist }
  simp only [keeps.tables, metrics, executions]
  rfl

/-- Every operation that succeeds changes store and ledger alike. -/
theorem Keeps.perform (keeps : Keeps s c) {operation : StoreOperation}
    (done : operation.perform s = .ok after) : Keeps after (c.after operation) := by
  cases operation with
  | insertDataSource source => exact keeps.insertDataSource done
  | setDataSourceHealth id health =>
      obtain ⟨found, written⟩ := Store.map_snd_ok.mp done
      exact keeps.changeSource (fun source => { source with health }) rfl (fun _ => rfl) written
  | softDeleteDataSource id deletedAt =>
      obtain ⟨found, written⟩ := Store.map_snd_ok.mp done
      exact keeps.changeSource (fun source => { source with deletedAt := some deletedAt }) rfl
        (fun _ => rfl) written
  | insertMetricsGroup g => exact keeps.insertMetricsGroup done
  | updateMetricsGroup id update =>
      obtain ⟨found, written⟩ := Store.map_snd_ok.mp done
      exact keeps.updateMetricsGroup written
  | deleteMetricsGroup id =>
      obtain ⟨found, written⟩ := Store.map_snd_ok.mp done
      exact keeps.deleteMetricsGroup written
  | insertMetric m => exact keeps.insertMetric done
  | updateMetric m =>
      obtain ⟨found, written⟩ := Store.map_snd_ok.mp done
      exact keeps.updateMetric written
  | deleteMetric id =>
      obtain ⟨found, written⟩ := Store.map_snd_ok.mp done
      exact keeps.deleteMetric written
  | updateMetricExecution e =>
      obtain ⟨found, written⟩ := Store.map_snd_ok.mp done
      exact keeps.updateMetricExecution written
  | close =>
      cases done
      exact { tables := keeps.tables, keyed := keeps.keyed }

theorem Operated.keeps {allowed : StoreOperation → Prop} (operated : Operated allowed s c) :
    Keeps s c := by
  refine Store.Operated.invariant empty_keeps (fun _ keeps _ done => keeps.perform done) ?_
    operated
  rintro s again c keeps rfl
  exact { tables := keeps.tables, keyed := keeps.keyed }

end RelationalStore

end RolloutWatch

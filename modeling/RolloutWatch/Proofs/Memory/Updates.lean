import RolloutWatch.Proofs.Memory.Effect
import RolloutWatch.Proofs.Store.SourceReads

/-!
The typed updates of the store in memory. Each of them writes to one row of one table, and the
reads, which put metrics together with their executions and groups with their metrics, show it in
the named fields only.
-/

namespace RolloutWatch.MemoryStore

variable {s after : MemoryStore} {c : Contents} {found : Bool}

/-! ### Rows that have been written -/

/-- Groups, metrics and executions have been rewritten, so that they are read through views. Their
places in searches are the same. -/
structure Rewritten (ofGroup : MetricsGroup → MetricsGroup) (ofMetric onMetric : Metric → Metric)
    (onExecution : MetricExecution → MetricExecution)
    (onExecutions : List MetricExecution → List MetricExecution) (s after : MemoryStore) :
    Prop where
  closed : after.closed = s.closed
  groups : after.groups = s.groups.map ofGroup
  metrics : after.metrics = s.metrics.map ofMetric
  executions : after.executions = onExecutions s.executions
  groupPlace : ∀ g, (ofGroup g).id = g.id
  groupFields : ∀ g metrics viewed, { ofGroup { g with metrics } with metrics := viewed } =
    { ofGroup g with metrics := viewed }
  metricPlace : ∀ m, (ofMetric m).id = m.id ∧ (ofMetric m).metricsGroupId = m.metricsGroupId
  hydrate : ∀ m, after.hydrate (ofMetric m) = onMetric (s.hydrate m)
  executionFor : ∀ id, after.executionFor id = (s.executionFor id).map onExecution

theorem whenOpen_through {α β : Type} (closed : after.closed = s.closed) {view : α → β} {a : α}
    {b : β} (same : b = view a) : after.whenOpen (.ok b) = (s.whenOpen (.ok a)).map view := by
  unfold whenOpen
  rw [same, closed]
  cases s.closed <;> rfl

section

variable {ofGroup : MetricsGroup → MetricsGroup} {ofMetric onMetric : Metric → Metric}
  {onExecution : MetricExecution → MetricExecution}
  {onExecutions : List MetricExecution → List MetricExecution}

theorem Rewritten.hydrateGroup
    (rewritten : Rewritten ofGroup ofMetric onMetric onExecution onExecutions s after)
    (g : MetricsGroup) :
    after.hydrateGroup (ofGroup g) = (s.hydrateGroup g).viewedBy ofGroup onMetric := by
  have chosen : (fun m : Metric => decide (m.metricsGroupId = (ofGroup g).id)) ∘ ofMetric =
      fun m => decide (m.metricsGroupId = g.id) := by
    funext m
    rw [Function.comp_apply, (rewritten.metricPlace m).2, rewritten.groupPlace]
  have metrics : (after.metrics.filter fun m => m.metricsGroupId = (ofGroup g).id).map
      after.hydrate =
        ((s.metrics.filter fun m => m.metricsGroupId = g.id).map s.hydrate).map onMetric := by
    rw [rewritten.metrics, List.filter_map, chosen, List.map_map, List.map_map]
    exact congrArg (List.map · _) (funext rewritten.hydrate)
  unfold MemoryStore.hydrateGroup MetricsGroup.viewedBy
  rw [metrics]
  exact (rewritten.groupFields g _ _).symm

/-- The reads show what has been rewritten through the views. -/
theorem Rewritten.tracked
    (rewritten : Rewritten ofGroup ofMetric onMetric onExecution onExecutions s after) :
    Store.TrackedThrough (MetricsGroup.viewedBy ofGroup onMetric) onMetric onExecution onExecutions
      s after where
  group id := by
    have search : (fun g : MetricsGroup => decide (g.id = id)) ∘ ofGroup =
        fun g => decide (g.id = id) :=
      funext fun g => congrArg (fun other => decide (other = id)) (rewritten.groupPlace g)
    apply whenOpen_through rewritten.closed
    rw [rewritten.groups, List.find?_map, search, Option.map_map, Option.map_map]
    exact congrArg (Option.map · _) (funext rewritten.hydrateGroup)
  groups := by
    apply whenOpen_through rewritten.closed
    rw [rewritten.groups, List.map_map, List.map_map]
    exact congrArg (List.map · _) (funext rewritten.hydrateGroup)
  metric id := by
    have search : (fun m : Metric => decide (m.id = id)) ∘ ofMetric =
        fun m => decide (m.id = id) :=
      funext fun m => congrArg (fun other => decide (other = id)) (rewritten.metricPlace m).1
    apply whenOpen_through rewritten.closed
    rw [rewritten.metrics, List.find?_map, search, Option.map_map, Option.map_map]
    exact congrArg (Option.map · _) (funext rewritten.hydrate)
  execution id := whenOpen_through rewritten.closed (rewritten.executionFor id)
  executions := whenOpen_through rewritten.closed rewritten.executions

end

/-! ### Groups -/

theorem rewritten_group (s : MemoryStore) (groupId : EntityId) (u : MetricsGroupUpdate) :
    Rewritten (MetricsGroup.updatedBy groupId u) id id id id s
      { s with groups := s.groups.map (MetricsGroup.updatedBy groupId u) } where
  closed := rfl
  groups := rfl
  metrics := (List.map_id _).symm
  executions := rfl
  groupPlace := MetricsGroup.updatedBy_kept MetricsGroup.id fun _ _ _ => rfl
  groupFields := MetricsGroup.updatedBy_withMetrics
  metricPlace _ := ⟨rfl, rfl⟩
  hydrate _ := rfl
  executionFor _ := Option.map_id_apply.symm

theorem Keeps.groupUpdated (keeps : Keeps s c) {groupId : EntityId} {u : MetricsGroupUpdate}
    (written : updateMetricsGroup groupId u s = .ok (found, after)) :
    if found then Store.GroupUpdated groupId u s after else after = s := by
  obtain ⟨opened, result⟩ := whenOpen_ok written
  cases result
  split
  · rename_i hit
    obtain ⟨row, first⟩ := Store.exists_first hit
    have rows := Store.updateFirst_of_nodup MetricsGroup.id groupId
      (fun g => { g with name := u.name, circleId := u.circleId }) s.groups keeps.groupIds
    have tracked := (rewritten_group s groupId u).tracked
    rw [Store.viewedBy_updatedBy] at tracked
    rw [rows]
    refine { addressed := ?_, sources := ⟨fun _ => rfl, fun _ _ => rfl⟩, tracked }
    change s.whenOpen (.ok ((s.groups.find? _).map _)) ≠ _
    rw [whenOpen_of_open _ opened, first]
    intro impossible
    cases impossible
  · rename_i missed
    have kept := Store.updateFirst_of_not_found _ _ _ (Bool.eq_false_of_not_eq_true missed)
    exact congrArg (fun groups => { s with groups }) kept

/-! ### Metrics -/

theorem hydrate_updatedBy (s : MemoryStore) (definition m : Metric) :
    s.hydrate (Metric.updatedBy definition m) = Metric.updatedBy definition (s.hydrate m) := by
  unfold Metric.updatedBy
  by_cases same : m.id = definition.id
  · rw [if_pos same, if_pos ((hydrate_id s m).trans same)]
    cases found : s.executionFor m.id with
    | none =>
        have missing : s.executionFor (m.withDefinitionOf definition).id = none := found
        unfold hydrate
        rw [missing, found]
    | some e =>
        have there : s.executionFor (m.withDefinitionOf definition).id = some e := found
        rw [hydrate_of_found found, hydrate_of_found there]
        rfl
  · rw [if_neg same, if_neg fun again => same ((hydrate_id s m).symm.trans again)]

theorem rewritten_metric (s : MemoryStore) (definition : Metric) :
    Rewritten id (Metric.updatedBy definition) (Metric.updatedBy definition) id id s
      { s with metrics := s.metrics.map (Metric.updatedBy definition) } where
  closed := rfl
  groups := (List.map_id _).symm
  metrics := rfl
  executions := rfl
  groupPlace _ := rfl
  groupFields _ _ _ := rfl
  metricPlace m :=
    ⟨Metric.updatedBy_kept Metric.id (fun _ => rfl) m,
      Metric.updatedBy_kept Metric.metricsGroupId (fun _ => rfl) m⟩
  hydrate := hydrate_updatedBy s definition
  executionFor _ := Option.map_id_apply.symm

theorem Keeps.metricUpdated (keeps : Keeps s c) {m : Metric}
    (written : updateMetric m s = .ok (found, after)) :
    if found then Store.MetricUpdated m s after else after = s := by
  obtain ⟨opened, result⟩ := whenOpen_ok written
  cases result
  split
  · rename_i hit
    obtain ⟨row, first⟩ := Store.exists_first hit
    have rows := Store.updateFirst_of_nodup Metric.id m.id (fun row => row.withDefinitionOf m)
      s.metrics keeps.metricIds
    rw [rows]
    refine
      { addressed := ?_
        sources := ⟨fun _ => rfl, fun _ _ => rfl⟩
        tracked := (rewritten_metric s m).tracked }
    change s.whenOpen (.ok ((s.metrics.find? _).map _)) ≠ _
    rw [whenOpen_of_open _ opened, first]
    intro impossible
    cases impossible
  · rename_i missed
    have kept := Store.updateFirst_of_not_found _ _ _ (Bool.eq_false_of_not_eq_true missed)
    exact congrArg (fun metrics => { s with metrics }) kept

/-! ### Executions -/

section

variable {state target : MetricExecution}

def withState (state : MetricExecution) (s : MemoryStore) : MemoryStore :=
  { s with
    executions :=
      (Store.updateFirst (fun e => e.id = state.id) (fun e => e.withStateOf state)
        s.executions).2 }

/-- An execution that is found under its metric shows the state if it is the first one that has the
identifier. -/
theorem executionFor_withState (first : s.executions.find? (fun e => e.id = state.id) = some target)
    (id : EntityId) :
    (s.withState state).executionFor id =
      (s.executionFor id).map (MetricExecution.withStateFor target.metricId state) := by
  have search := Store.find_updateFirst MetricExecution.metricId
    (fun e => (rfl : (e.withStateOf state).metricId = e.metricId)) first id
  simp only [decide_eq_true_eq] at search
  exact search

theorem hydrate_withState (first : s.executions.find? (fun e => e.id = state.id) = some target)
    (m : Metric) :
    (s.withState state).hydrate m = Metric.withStateOf target.metricId state (s.hydrate m) := by
  have after := executionFor_withState first m.id
  cases found : s.executionFor m.id with
  | none =>
      rw [found] at after
      -- The metric keeps the execution that it was stored with, which cannot be the one written.
      have unowned : m.id ≠ target.metricId := by
        intro same
        have stored : target ∈ s.executions := List.mem_of_find?_eq_some first
        have missed := List.find?_eq_none.mp found target stored
        exact missed (decide_eq_true same.symm)
      unfold hydrate Metric.withStateOf
      rw [after, found]
      exact (if_neg fun both => unowned both.1).symm
  | some e =>
      obtain ⟨-, names⟩ := executionFor_names found
      rw [found] at after
      rw [hydrate_of_found found, hydrate_of_found after]
      unfold Metric.withStateOf MetricExecution.withStateFor
      rw [names]
      split <;> rfl

theorem rewritten_execution (first : s.executions.find? (fun e => e.id = state.id) = some target) :
    Rewritten id id (Metric.withStateOf target.metricId state)
      (MetricExecution.withStateFor target.metricId state)
      (fun listed =>
        (Store.updateFirst (fun e => e.id = state.id) (fun e => e.withStateOf state) listed).2)
      s (s.withState state) where
  closed := rfl
  groups := (List.map_id _).symm
  metrics := (List.map_id _).symm
  executions := rfl
  groupPlace _ := rfl
  groupFields _ _ _ := rfl
  metricPlace _ := ⟨rfl, rfl⟩
  hydrate := hydrate_withState first
  executionFor := executionFor_withState first

end

theorem executionUpdated {e : MetricExecution}
    (written : updateMetricExecution e s = .ok (found, after)) :
    if found then ∃ owner, Store.ExecutionUpdated e owner s after else after = s := by
  obtain ⟨opened, result⟩ := whenOpen_ok written
  cases result
  split
  · rename_i hit
    obtain ⟨target, first⟩ := Store.exists_first hit
    refine ⟨target.metricId,
      { addressed := fun listed answered => ?_
        sources := ⟨fun _ => rfl, fun _ _ => rfl⟩
        tracked := (rewritten_execution first).tracked }⟩
    obtain ⟨-, same⟩ := whenOpen_ok answered
    cases same
    rw [first]
    rfl
  · rename_i missed
    have kept := Store.updateFirst_of_not_found _ _ _ (Bool.eq_false_of_not_eq_true missed)
    exact congrArg (fun executions => { s with executions }) kept

/-! ### Sources -/

theorem readsSources : Store.ReadsSources (Except.ok : DataSource → Parsed DataSource) where
  identified source found read := by
    cases read
    exact ⟨rfl, rfl⟩
  withHealth _ _ := rfl

theorem Keeps.servesSources (keeps : Keeps s c) (opened : s.closed = false) :
    Store.ServesSources Except.ok listedBefore s s.sources where
  find id := by
    have search := Store.find_and_of_nodup DataSource.id id (fun source => !source.isDeleted)
      s.sources keeps.sourceIds
    change s.whenOpen _ = Database.readFound _ (s.sources.find? fun source => _ && _)
    rw [whenOpen_of_open _ opened, search]
    cases (s.sources.find? fun source => source.id = id).filter _ <;> rfl
  list workspaceId health := by
    have read (listed : List DataSource) :
        listed.mapM Except.ok = (.ok (listed.map id) : Parsed (List DataSource)) :=
      Parsed.mapM_each fun _ _ => rfl
    rw [read, List.map_id]
    exact whenOpen_of_open _ opened

theorem Keeps.catalogued (keeps : Keeps s c) : Catalogued s s.sources :=
  { stored := rfl, distinct := keeps.sourceIds }

theorem Keeps.changesSource (keeps : Keeps s c) {id : EntityId} (change : DataSource → DataSource)
    (keepsId : ∀ source, (change source).id = source.id)
    (written : s.changeSource id change = .ok (found, after)) :
    if found then
      Store.ChangesSource Except.ok listedBefore Catalogued id change s after s.sources
    else after = s := by
  have keepsAfter := keeps.changeSource keepsId written
  have later := keepsAfter.sources
  rw [← keeps.sources] at later
  obtain ⟨opened, result⟩ := whenOpen_ok written
  cases result
  split
  · rename_i hit
    rw [Store.updateFirst_found] at hit
    have servesLater := keepsAfter.servesSources opened
    have heldLater := keepsAfter.catalogued
    rw [later] at servesLater heldLater
    exact
      { serves := keeps.servesSources opened
        servesLater
        held := keeps.catalogued
        heldLater
        found := hit
        tracked := ⟨fun _ => rfl, rfl, fun _ => rfl, fun _ => rfl, rfl⟩ }
  · rename_i missed
    have kept := Store.updateFirst_of_not_found _ _ _ (Bool.eq_false_of_not_eq_true missed)
    exact congrArg (fun sources => { s with sources }) kept

/-- Whatever operations have led to the store, its typed updates write the named fields only. -/
theorem Operated.writesOnlyNamed {allowed : StoreOperation → Prop}
    (operated : Operated allowed s c) : Store.WritesOnlyNamed (fun x => x) Catalogued s where
  group _ _ _ _ written := operated.keeps.groupUpdated written
  metric _ _ _ written := operated.keeps.metricUpdated written
  ignored _ _ _ _ := rfl
  execution _ _ _ written := executionUpdated written
  health id health found after written := by
    have changed := operated.keeps.changesSource (fun source => { source with health })
      (fun _ => rfl) written
    cases found with
    | true => exact changed.healthSet readsSources listedBefore_comparesBy fun _ _ => rfl
    | false => exact changed
  deletion id deletedAt found after written := by
    have changed := operated.keeps.changesSource
      (fun source => { source with deletedAt := some deletedAt }) (fun _ => rfl) written
    cases found with
    | true => exact changed.sourceDeleted readsSources listedBefore_comparesBy
    | false => exact changed

end RolloutWatch.MemoryStore

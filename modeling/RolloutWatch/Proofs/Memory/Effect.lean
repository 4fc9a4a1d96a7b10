import RolloutWatch.Proofs.Evaluation.Effect

/-!
What an evaluation does to the store in memory. A reading changes the execution that names its
metric and nothing else in the tables, and all reads answer through this change, since metrics
are read together with the executions that name them.
-/

namespace RolloutWatch.MemoryStore

def mapExecutions (change : MetricExecution → MetricExecution) (s : MemoryStore) : MemoryStore :=
  { s with executions := s.executions.map change }

/-! ### Readings -/

def take (policy : TransitionPolicy) (r : Recording) : MemoryStore → MemoryStore :=
  mapExecutions fun e =>
    if e.metricId = r.metric.id then Tracker.afterReading policy r.metric r.value e else e

/-- The metric is held with its execution, in an open store in which every execution has an
identifier and a metric of its own. -/
structure Holds (m : Metric) (s : MemoryStore) : Prop where
  opened : s.closed = false
  ids : (s.executions.map MetricExecution.id).Nodup
  owners : (s.executions.map MetricExecution.metricId).Nodup
  found : s.executionFor m.id = some m.execution

theorem executionFor_mapExecutions {change : MetricExecution → MetricExecution}
    (kept : ∀ e, (change e).metricId = e.metricId) (s : MemoryStore) (id : EntityId) :
    (s.mapExecutions change).executionFor id = (s.executionFor id).map change := by
  have search : (fun e : MetricExecution => decide (e.metricId = id)) ∘ change =
      fun e => decide (e.metricId = id) := by
    funext e
    rw [Function.comp_apply, kept]
  unfold executionFor mapExecutions
  rw [List.find?_map, search]

theorem writeExecution_eq_take {s : MemoryStore} {r : Recording} (held : Holds r.metric s)
    (policy : TransitionPolicy) :
    writeExecution (r.written policy) s = take policy r s := by
  obtain ⟨stored, names⟩ := executionFor_names held.found
  have rows := Store.updateFirst_of_owner held.ids held.owners stored
    (fun row => row.withStateOf (r.written policy))
    (Tracker.afterReading policy r.metric r.value) rfl
  rw [names] at rows
  exact congrArg (fun executions => { s with executions }) rows

theorem Holds.mapExecutions {m : Metric} {s : MemoryStore} (held : Holds m s)
    {change : MetricExecution → MetricExecution}
    (kept : ∀ e, (change e).id = e.id ∧ (change e).metricId = e.metricId)
    (same : change m.execution = m.execution) : Holds m (s.mapExecutions change) := by
  have ids : (s.mapExecutions change).executions.map MetricExecution.id =
      s.executions.map MetricExecution.id := by
    unfold MemoryStore.mapExecutions
    rw [List.map_map]
    exact List.map_congr_left fun e _ => (kept e).1
  have owners : (s.mapExecutions change).executions.map MetricExecution.metricId =
      s.executions.map MetricExecution.metricId := by
    unfold MemoryStore.mapExecutions
    rw [List.map_map]
    exact List.map_congr_left fun e _ => (kept e).2
  refine { opened := held.opened, ids := ?_, owners := ?_, found := ?_ }
  · rw [ids]
    exact held.ids
  · rw [owners]
    exact held.owners
  · rw [executionFor_mapExecutions fun e => (kept e).2, held.found, Option.map_some, same]

theorem takesReadings (policy : TransitionPolicy) :
    TakesReadings policy Holds (take policy) where
  record r world held := by
    rw [record_of_found policy r.value held.opened held.found, ← writeExecution_eq_take held]
    rfl
  others r m s _ held apart := by
    obtain ⟨-, names⟩ := executionFor_names held.found
    apply held.mapExecutions
    · intro e
      split <;> exact ⟨rfl, rfl⟩
    · rw [names, if_neg apart]

theorem foldl_take (policy : TransitionPolicy) {rs : List Recording}
    (distinct : (rs.map fun r => r.metric.id).Nodup) (s : MemoryStore) :
    rs.foldl (fun s r => take policy r s) s = s.mapExecutions (Recording.applyAll policy rs) := by
  refine Store.foldl_changeFor mapExecutions ?_ ?_ ?_ distinct s
  · intro t
    unfold mapExecutions
    rw [List.map_id]
  · intro f g t
    unfold mapExecutions
    rw [List.map_map]
  · intro r e
    rfl

/-! ### Reads -/

theorem whenOpen_map {α β : Type} (s : MemoryStore) (view : α → β) (answer : Except Error α) :
    s.whenOpen (answer.map view) = (s.whenOpen answer).map view := by
  unfold whenOpen
  cases s.closed <;> rfl

section

variable {change : MetricExecution → MetricExecution} {s : MemoryStore}

theorem hydrate_mapExecutions (linked : Linked s) (kept : ∀ e, (change e).metricId = e.metricId)
    {m : Metric} (stored : m ∈ s.metrics) :
    (s.mapExecutions change).hydrate m = (s.hydrate m).mapExecution change := by
  obtain ⟨e, found⟩ := linked.exists_execution (List.mem_map_of_mem stored)
  have after := executionFor_mapExecutions kept s m.id
  rw [found, Option.map_some] at after
  rw [hydrate_of_found found, hydrate_of_found after]
  rfl

theorem hydrateGroup_mapExecutions (linked : Linked s)
    (kept : ∀ e, (change e).metricId = e.metricId) (g : MetricsGroup) :
    (s.mapExecutions change).hydrateGroup g = (s.hydrateGroup g).mapExecutions change := by
  have metrics : (s.metrics.filter fun m => m.metricsGroupId = g.id).map
      (s.mapExecutions change).hydrate =
        ((s.metrics.filter fun m => m.metricsGroupId = g.id).map s.hydrate).map
          (Metric.mapExecution change) := by
    rw [List.map_map]
    exact List.map_congr_left fun m member =>
      hydrate_mapExecutions linked kept (List.mem_of_mem_filter member)
  exact congrArg (fun metrics => { g with metrics }) metrics

/-- The reads answer through a change of the executions that keeps the metrics they name. -/
theorem answersThrough (linked : Linked s) (kept : ∀ e, (change e).metricId = e.metricId) :
    AnswersThrough change s (s.mapExecutions change) where
  source _ := rfl
  sources _ _ := rfl
  group id := by
    refine Eq.trans ?_ (whenOpen_map s _ (.ok ((s.groups.find? fun g => g.id = id).map _)))
    refine congrArg (fun found => s.whenOpen (.ok found)) ?_
    rw [Option.map_map]
    exact congrArg (Option.map · _) (funext (hydrateGroup_mapExecutions linked kept))
  groups := by
    refine Eq.trans ?_ (whenOpen_map s _ (.ok (s.groups.map _)))
    refine congrArg (fun listed => s.whenOpen (.ok listed)) ?_
    rw [List.map_map]
    exact congrArg (List.map · _) (funext (hydrateGroup_mapExecutions linked kept))
  metric id := by
    refine Eq.trans ?_ (whenOpen_map s _ (.ok ((s.metrics.find? fun m => m.id = id).map _)))
    refine congrArg (fun found => s.whenOpen (.ok found)) ?_
    change (s.metrics.find? fun m => m.id = id).map _ = _
    cases found : s.metrics.find? fun m => m.id = id with
    | none => rfl
    | some m =>
        have stored := List.mem_of_find?_eq_some found
        exact congrArg some (hydrate_mapExecutions linked kept stored)
  execution id := by
    refine Eq.trans ?_ (whenOpen_map s _ (.ok (s.executionFor id)))
    exact congrArg (fun found => s.whenOpen (.ok found)) (executionFor_mapExecutions kept s id)
  executions := whenOpen_map s (List.map change) (.ok s.executions)

end

/-! ### Evaluations -/

theorem Owned.holds {s : MemoryStore} (owned : Owned s) {groupId : EntityId} {g : MetricsGroup}
    (loaded : Store.findMetricsGroup groupId s = .ok (some g)) : ∀ m ∈ g.metrics, Holds m s := by
  obtain ⟨opened, result⟩ := whenOpen_ok loaded
  obtain ⟨row, _, rfl⟩ := Option.map_eq_some_iff.mp (Except.ok.inj result)
  intro m member
  obtain ⟨bare, listed, rfl⟩ := List.mem_map.mp member
  obtain ⟨-, -, found⟩ := hydrate_execution owned.toLinked (List.mem_of_mem_filter listed)
  refine { opened, ids := owned.executionIds, owners := ?_, found := ?_ }
  · rw [owned.executions]
    exact owned.metricIds
  · rw [hydrate_id]
    exact found

/-- Where executions have identifiers of their own, a successful evaluation has its effect, and
changes the executions of the metrics with a reading only. -/
theorem Owned.effect {engine : Engine}
    {ask : Nat → Driver → List UInt8 → List UInt8 → Asking} {groupId : EntityId}
    {limits : QueryPhase.Limits} {world : World MemoryStore}
    {result : Except Error GroupEvaluation × World MemoryStore} {report : GroupEvaluation}
    (owned : Owned world.store)
    (evaluates : Evaluation.Evaluates engine ask groupId limits world result)
    (succeeded : result.1 = .ok report) :
    ∃ g, Evaluation.Effect engine ask groupId world result.2.store report g ∧
      result.2.store = world.store.mapExecutions
        (Recording.applyAll engine.settings.transitionPolicy
          ((Evaluation.outcomes engine ask world g).filterMap Outcome.recording?)) := by
  obtain ⟨g, loaded, executions, taken⟩ := evaluates.takes (takesReadings _)
    (fun g loaded => ⟨(owned.toLinked.loads loaded).1, owned.holds loaded⟩) succeeded
  obtain ⟨distinct, -⟩ := owned.toLinked.loads loaded
  rw [foldl_take _ (Evaluation.readings_of_metrics
    (Evaluation.outcomes_metrics engine ask world g) distinct).1] at taken
  refine ⟨g, Evaluation.effect_of_answers loaded executions distinct ?_ ?_ ?_, taken⟩
  · intro m member
    have held := owned.holds loaded m member
    exact (whenOpen_of_open _ held.opened).trans (congrArg Except.ok held.found)
  · intro id e found
    exact (executionFor_names (Except.ok.inj (whenOpen_ok found).2)).2
  · rw [taken]
    exact answersThrough owned.toLinked (Recording.applyAll_metricId _ _)

end RolloutWatch.MemoryStore

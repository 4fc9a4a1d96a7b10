import RolloutWatch.Proofs.Relational.Mirror

/-!
Inserts into the store in memory and into its rows. Both refuse an identifier that is taken,
each with a fault of its own, and otherwise the rows of what is inserted are added. The keys
of executions are checked on one side only, so that they have to be new.
-/

namespace RolloutWatch

namespace Error

/-- The same error, or two faults of persistence. -/
def Alike (e f : Error) : Prop :=
  e = f ∨ ∃ fault other, e = .persistence fault ∧ f = .persistence other

end Error

/-- Both answers are results that belong together, or both are errors that are alike. -/
def Agrees {α β : Type} (related : α → β → Prop) : Except Error α → Except Error β → Prop
  | .ok a, .ok b => related a b
  | .error e, .error f => e.Alike f
  | _, _ => False

theorem Agrees.map {α β : Type} {related : α → β → Prop} (answer : Except Error α)
    {view : α → β} (same : ∀ a, answer = .ok a → related a (view a)) :
    Agrees related answer (answer.map view) := by
  cases answer with
  | error e => exact .inl rfl
  | ok a => exact same a rfl

theorem Agrees.cases {α β : Type} {related : α → β → Prop} {answer : Except Error α}
    {other : Except Error β} (agree : Agrees related answer other) :
    (∃ e f, answer = .error e ∧ other = .error f ∧ e.Alike f) ∨
      ∃ a b, answer = .ok a ∧ other = .ok b ∧ related a b := by
  cases answer with
  | error e =>
      cases other with
      | error f => exact .inl ⟨e, f, rfl, rfl, agree⟩
      | ok b => exact agree.elim
  | ok a =>
      cases other with
      | error f => exact agree.elim
      | ok b => exact .inr ⟨a, b, rfl, rfl, agree⟩

namespace MemoryStore

/-- The write of the relational store leaves the rows of what the write in memory leaves. -/
def Mirrored (after : MemoryStore) (mirrored : RelationalStore) : Prop :=
  mirrored = after.mirror

theorem agrees_whenOpen {α β : Type} (s : MemoryStore) {related : α → β → Prop}
    {answer : Except Error α} {mirrored : Except Error β} (same : Agrees related answer mirrored) :
    Agrees related (s.whenOpen answer) (s.mirror.whenOpen mirrored) := by
  unfold RelationalStore.whenOpen whenOpen
  change Agrees related _ (if s.closed = true then _ else _)
  cases s.closed with
  | true => exact .inl rfl
  | false => exact same

theorem any_row_id {α β : Type} (key : α → EntityId) (column : β → String) (row : α → β)
    (written : ∀ a, column (row a) = (key a).text) (id : EntityId) (items : List α) :
    (items.map row).any (fun r => column r = id.text) = items.any fun a => key a = id := by
  rw [List.any_map]
  refine congrArg items.any (funext fun a => ?_)
  rw [Function.comp_apply, written, EntityId.decide_text]

/-! ### Data sources -/

theorem agrees_insertDataSource (s : MemoryStore) (source : DataSource) :
    Agrees Mirrored (insertDataSource source s)
      (RelationalStore.insertDataSource source s.mirror) := by
  have taken : s.rows.sources.any (fun other => other.id = source.id.text) =
      s.sources.any fun other => other.id = source.id :=
    any_row_id DataSource.id SourceRow.id .ofSource (fun _ => rfl) source.id s.sources
  apply s.agrees_whenOpen
  unfold Database.insertSource
  change Agrees Mirrored _ (Except.map _
    (if (s.rows.sources.any fun other => other.id = source.id.text) = true then _ else _))
  rw [taken]
  split
  · exact .inr ⟨_, _, rfl, rfl⟩
  · change RelationalStore.mk _ _ = _
    unfold mirror rows
    simp only [List.map_append, List.map_cons, List.map_nil]

/-! ### Metrics -/

/-- The metric's execution names it, and has an identifier that no execution has. -/
structure Insertable (s : MemoryStore) (m : Metric) : Prop where
  names : m.execution.metricId = m.id
  newExecution : m.execution.id ∉ s.executions.map MetricExecution.id

def addGroup (s : MemoryStore) (g : MetricsGroup) : MemoryStore :=
  { s with groups := s.groups ++ [{ g with metrics := [] }] }

def addMetric (s : MemoryStore) (m : Metric) : MemoryStore :=
  { s with metrics := s.metrics ++ [m], executions := s.executions ++ [m.execution] }

theorem any_false_of_absent {α : Type} {key : α → EntityId} {id : EntityId} {items : List α}
    (absent : id ∉ items.map key) : (items.any fun a => key a = id) = false := by
  rw [List.any_eq_false]
  intro a member same
  apply absent
  rw [← of_decide_eq_true same]
  exact List.mem_map_of_mem member

theorem rows_insertMetric {s : MemoryStore}
    (aligned : s.executions.map MetricExecution.metricId = s.metricIds) {m : Metric}
    (insertable : s.Insertable m) (newMetric : m.id ∉ s.metricIds) :
    s.rows.insertMetric m = .ok (s.addMetric m).rows := by
  have metricFree : s.rows.metrics.any (fun other => other.id = m.id.text) = false :=
    (any_row_id Metric.id MetricRow.id .ofMetric (fun _ => rfl) m.id s.metrics).trans
      (any_false_of_absent newMetric)
  have executionFree : s.rows.executions.any (fun other => other.id = m.execution.id.text) =
      false :=
    (any_row_id MetricExecution.id ExecutionRow.id executionRowOf (fun _ => rfl) m.execution.id
      s.executions).trans (any_false_of_absent insertable.newExecution)
  have ownerFree : s.rows.executions.any (fun other => other.metricId = m.id.text) = false := by
    refine (any_row_id MetricExecution.metricId ExecutionRow.metricId executionRowOf
      (fun _ => rfl) m.id s.executions).trans (any_false_of_absent ?_)
    rw [aligned]
    exact newMetric
  have row : ExecutionRow.ofExecution m.id m.execution = executionRowOf m.execution := by
    unfold executionRowOf
    rw [insertable.names]
  unfold Database.insertMetric
  change (if (s.rows.metrics.any fun other => other.id = m.id.text) = true then _
    else if (s.rows.executions.any fun other => other.id = m.execution.id.text) = true then _
    else if (s.rows.executions.any fun other => other.metricId = m.id.text) = true then _
    else _) = _
  rw [metricFree, executionFree, ownerFree, row]
  unfold addMetric rows
  simp only [Bool.false_eq_true, if_false, List.map_append, List.map_cons, List.map_nil]

theorem rows_insertMetric_taken {s : MemoryStore} {m : Metric} (taken : m.id ∈ s.metricIds) :
    s.rows.insertMetric m = Database.notUnique "metrics.id" := by
  have found : s.rows.metrics.any (fun other => other.id = m.id.text) = true := by
    obtain ⟨other, stored, same⟩ := List.mem_map.mp taken
    refine (any_row_id Metric.id MetricRow.id .ofMetric (fun _ => rfl) m.id s.metrics).trans ?_
    exact List.any_eq_true.mpr ⟨other, stored, decide_eq_true same⟩
  unfold Database.insertMetric
  exact if_pos found

theorem agrees_insertMetric {s : MemoryStore} (linked : Linked s) {m : Metric}
    (insertable : s.Insertable m) :
    Agrees Mirrored (insertMetric m s) (RelationalStore.insertMetric m s.mirror) := by
  have owned : s.rows.groups.any (fun r => r.id = m.metricsGroupId.text) =
      s.groups.any fun g => g.id = m.metricsGroupId :=
    any_row_id MetricsGroup.id GroupRow.id .ofGroup (fun _ => rfl) m.metricsGroupId s.groups
  apply s.agrees_whenOpen
  change Agrees Mirrored _ (Except.map _
    (if (s.rows.groups.any fun r => r.id = m.metricsGroupId.text) = true then
      s.rows.insertMetric m else _))
  rw [owned]
  cases s.groups.any fun g => g.id = m.metricsGroupId with
  | false => exact .inl rfl
  | true =>
      simp only [Bool.not_true, Bool.false_eq_true, if_false, if_true]
      by_cases taken : m.id ∈ s.metricIds
      · rw [rows_insertMetric_taken taken, if_pos]
        · exact .inr ⟨_, _, rfl, rfl⟩
        · obtain ⟨other, stored, same⟩ := List.mem_map.mp taken
          exact List.any_eq_true.mpr ⟨other, stored, decide_eq_true same⟩
      · rw [rows_insertMetric linked.executions insertable taken,
          if_neg (by rw [any_false_of_absent taken]; decide)]
        rfl

/-! ### Groups -/

/-- Metrics with new identifiers that come to be stored together. -/
structure AllInsertable (s : MemoryStore) (ms : List Metric) : Prop where
  names : ∀ m ∈ ms, m.execution.metricId = m.id
  metricIds : (ms.map Metric.id).Nodup
  newMetrics : ∀ m ∈ ms, m.id ∉ s.metricIds
  executionIds : (ms.map fun m => m.execution.id).Nodup
  newExecutions : ∀ m ∈ ms, m.execution.id ∉ s.executions.map MetricExecution.id

theorem AllInsertable.tail {s : MemoryStore} {m : Metric} {rest : List Metric}
    (all : s.AllInsertable (m :: rest)) : (s.addMetric m).AllInsertable rest := by
  obtain ⟨absent, metricIds⟩ := List.nodup_cons.mp all.metricIds
  obtain ⟨absentExecution, executionIds⟩ := List.nodup_cons.mp all.executionIds
  refine
    { names := fun other member => all.names other (List.mem_cons_of_mem _ member)
      metricIds
      newMetrics := fun other member => ?_
      executionIds
      newExecutions := fun other member => ?_ }
  · unfold MemoryStore.metricIds addMetric
    rw [List.map_append, List.mem_append, not_or]
    refine ⟨all.newMetrics other (List.mem_cons_of_mem _ member), fun same => absent ?_⟩
    rw [← List.mem_singleton.mp same]
    exact List.mem_map_of_mem member
  · unfold addMetric
    rw [List.map_append, List.mem_append, not_or]
    refine ⟨all.newExecutions other (List.mem_cons_of_mem _ member),
      fun same => absentExecution ?_⟩
    exact List.mem_map.mpr ⟨other, member, List.mem_singleton.mp same⟩

theorem firstTaken_of_new {s : MemoryStore} {before : List EntityId} {ms : List Metric}
    (distinct : (ms.map Metric.id).Nodup)
    (new : ∀ m ∈ ms, m.id ∉ before ∧ m.id ∉ s.metricIds) : s.firstTaken before ms = none := by
  induction ms generalizing before with
  | nil => rfl
  | cons m rest ih =>
      obtain ⟨absent, others⟩ := List.nodup_cons.mp distinct
      obtain ⟨notBefore, notStored⟩ := new m List.mem_cons_self
      unfold firstTaken
      rw [any_false_of_absent notStored, Bool.or_false, List.contains_eq_mem,
        decide_eq_false notBefore]
      refine ih others fun other member => ⟨?_, (new other (List.mem_cons_of_mem _ member)).2⟩
      rw [List.mem_cons, not_or]
      refine ⟨fun same => absent ?_, (new other (List.mem_cons_of_mem _ member)).1⟩
      rw [← same]
      exact List.mem_map_of_mem member

theorem rows_insertMetrics {s : MemoryStore}
    (aligned : s.executions.map MetricExecution.metricId = s.metricIds) {ms : List Metric}
    (all : s.AllInsertable ms) :
    s.rows.insertMetrics ms =
      .ok
        { s with
          metrics := s.metrics ++ ms
          executions := s.executions ++ ms.map Metric.execution }.rows := by
  induction ms generalizing s with
  | nil =>
      unfold Database.insertMetrics
      simp only [List.map_nil, List.append_nil]
  | cons m rest ih =>
      have insertable : s.Insertable m :=
        { names := all.names m List.mem_cons_self
          newExecution := all.newExecutions m List.mem_cons_self }
      have newMetric := all.newMetrics m List.mem_cons_self
      have alignedAfter : (s.addMetric m).executions.map MetricExecution.metricId =
          (s.addMetric m).metricIds := by
        unfold addMetric metricIds
        rw [List.map_append, List.map_append, aligned]
        exact congrArg (fun id => s.metricIds ++ [id]) insertable.names
      have later := ih alignedAfter all.tail
      unfold Database.insertMetrics
      rw [rows_insertMetric aligned insertable newMetric]
      simp only
      rw [later]
      unfold addMetric
      simp only [List.append_assoc, List.singleton_append, List.map_cons]

theorem agrees_insertMetricsGroup {s : MemoryStore} (linked : Linked s) {g : MetricsGroup}
    (all : s.AllInsertable g.metrics) :
    Agrees Mirrored (insertMetricsGroup g s) (RelationalStore.insertMetricsGroup g s.mirror) := by
  have taken : s.rows.groups.any (fun other => other.id = g.id.text) =
      s.groups.any fun other => other.id = g.id :=
    any_row_id MetricsGroup.id GroupRow.id .ofGroup (fun _ => rfl) g.id s.groups
  have free := firstTaken_of_new all.metricIds
    fun m member => ⟨List.not_mem_nil, all.newMetrics m member⟩
  have inserted : s.mirror.database.insertGroup (.ofGroup g) =
      if (s.groups.any fun other => other.id = g.id) = true then
        Database.notUnique "metrics_groups.id"
      else .ok { s.rows with groups := s.rows.groups ++ [GroupRow.ofGroup g] } := by
    rw [← taken]
    rfl
  apply s.agrees_whenOpen
  simp only [inserted]
  cases s.groups.any fun other => other.id = g.id with
  | true => exact .inr ⟨_, _, rfl, rfl⟩
  | false =>
      simp only [Bool.false_eq_true, if_false, free]
      have added : { s.rows with groups := s.rows.groups ++ [GroupRow.ofGroup g] } =
          (s.addGroup g).rows := by
        unfold addGroup rows
        simp only [List.map_append, List.map_cons, List.map_nil]
        rfl
      have grouped : (s.addGroup g).AllInsertable g.metrics :=
        { names := all.names
          metricIds := all.metricIds
          newMetrics := all.newMetrics
          executionIds := all.executionIds
          newExecutions := all.newExecutions }
      have aligned : (s.addGroup g).executions.map MetricExecution.metricId =
          (s.addGroup g).metricIds := linked.executions
      rw [added, rows_insertMetrics aligned grouped]
      rfl

end MemoryStore

end RolloutWatch

import RolloutWatch.Proofs.Evaluation.Effect
import RolloutWatch.Proofs.Relational.Codec
import RolloutWatch.Proofs.Relational.Recording
import RolloutWatch.Proofs.Relational.Tables

/-!
What an evaluation does to the relational store. A reading changes two columns of the row of
its metric's execution. The row is then read as the execution after the reading, since the text
of a finite number is read back exactly, and every other row is read as before.
-/

namespace RolloutWatch

namespace ExecutionRow

/-- The row after a reading of its metric. The old status is that of the execution that the
metric has been loaded with. -/
def afterReading (policy : TransitionPolicy) (r : Recording) (row : ExecutionRow) :
    ExecutionRow :=
  { row with
    lastValue := Column.numberText r.value
    status := (r.written policy).status.name }

def applyAll (policy : TransitionPolicy) (rs : List Recording) (row : ExecutionRow) :
    ExecutionRow :=
  Store.changeFor (fun r : Recording => r.metric.id.text) ExecutionRow.metricId
    (afterReading policy) rs row

end ExecutionRow

namespace RelationalStore

open Database

def mapExecutionRows (change : ExecutionRow → ExecutionRow) (s : RelationalStore) :
    RelationalStore :=
  { s with
    database := { s.database with executions := s.database.executions.map change } }

theorem closed_mapExecutionRows (s : RelationalStore) (change : ExecutionRow → ExecutionRow) :
    (s.mapExecutionRows change).closed = s.closed :=
  rfl

/-! ### Readings -/

def take (policy : TransitionPolicy) (r : Recording) : RelationalStore → RelationalStore :=
  mapExecutionRows fun row =>
    if row.metricId = r.metric.id.text then row.afterReading policy r else row

theorem Holds.writeExecution_eq_take {s : RelationalStore} {r : Recording}
    (held : Holds r.metric s) (policy : TransitionPolicy) :
    { s with database := writeExecution (r.written policy) s.database } = take policy r s := by
  obtain ⟨row, found, read⟩ := held.row
  obtain ⟨stored, names⟩ := Store.find_some_key ExecutionRow.metricId found
  have key : row.id = r.metric.execution.id.text :=
    Column.id_text (ExecutionRow.toExecution_id read) (held.keys.executionTexts row stored)
  have rows := Store.updateFirst_of_owner held.keys.executionIds held.keys.executionMetrics stored
    (ExecutionRow.afterReading policy r) (ExecutionRow.afterReading policy r) rfl
  rw [names, key] at rows
  exact congrArg
    (fun executions => { s with database := { s.database with executions } }) rows

theorem Holds.mapExecutionRows {m : Metric} {s : RelationalStore} (held : Holds m s)
    {change : ExecutionRow → ExecutionRow} (kept : ∀ row, (change row).keys = row.keys)
    (same : ∀ row, row.metricId = m.id.text → change row = row) :
    Holds m (s.mapExecutionRows change) := by
  obtain ⟨row, found, read⟩ := held.row
  have keys : (s.mapExecutionRows change).database.executions.map ExecutionRow.keys =
      s.database.executions.map ExecutionRow.keys := by
    unfold RelationalStore.mapExecutionRows
    rw [List.map_map]
    exact List.map_congr_left fun row _ => kept row
  have search : (fun row : ExecutionRow => decide (row.metricId = m.id.text)) ∘ change =
      fun row => decide (row.metricId = m.id.text) := by
    funext row
    have owner : (change row).metricId = row.metricId := congrArg Prod.snd (kept row)
    rw [Function.comp_apply, owner]
  refine { opened := held.opened, keys := ?_, row := ⟨row, ?_, read⟩ }
  · refine held.keys.sublist (List.Sublist.refl _) ?_
    rw [keys]
  · obtain ⟨_, names⟩ := Store.find_some_key ExecutionRow.metricId found
    unfold executionRow at found ⊢
    unfold RelationalStore.mapExecutionRows
    rw [List.find?_map, search, found, Option.map_some, same row names]

theorem takesReadings (policy : TransitionPolicy) :
    TakesReadings policy Holds (take policy) where
  record r world held := by
    obtain ⟨row, found, read⟩ := held.row
    rw [record_of_row held.opened held.keys found read, ← held.writeExecution_eq_take]
    rfl
  others r m s _ held apart := by
    apply held.mapExecutionRows
    · intro row
      split <;> rfl
    · intro row names
      have other : row.metricId ≠ r.metric.id.text := fun same =>
        apart (EntityId.text_injective (names.symm.trans same))
      exact if_neg other

theorem foldl_take (policy : TransitionPolicy) {rs : List Recording}
    (distinct : (rs.map fun r => r.metric.id).Nodup) (s : RelationalStore) :
    rs.foldl (fun s r => take policy r s) s =
      s.mapExecutionRows (ExecutionRow.applyAll policy rs) := by
  have texts : (rs.map fun r => r.metric.id.text).Nodup := by
    have mapped := distinct.map fun _ _ same => EntityId.text_injective same
    rw [List.map_map] at mapped
    exact mapped
  refine Store.foldl_changeFor mapExecutionRows ?_ ?_ ?_ texts s
  · intro t
    unfold mapExecutionRows
    rw [List.map_id]
  · intro f g t
    unfold mapExecutionRows
    rw [List.map_map]
  · intro r row
    rfl

/-! ### Rows after readings -/

end RelationalStore

namespace ExecutionRow

theorem toExecution_afterReading {row : ExecutionRow} {r : Recording}
    (read : row.toExecution = .ok r.metric.execution) (finite : r.value.isFinite = true)
    (policy : TransitionPolicy) :
    (row.afterReading policy r).toExecution = .ok (r.written policy) := by
  unfold toExecution at read
  obtain ⟨id, readId, rest⟩ := Parsed.bind_ok read
  obtain ⟨metricId, readMetricId, rest⟩ := Parsed.bind_ok rest
  obtain ⟨lastValue, -, rest⟩ := Parsed.bind_ok rest
  obtain ⟨status, -, rest⟩ := Parsed.bind_ok rest
  obtain ⟨createdAt, readCreatedAt, rest⟩ := Parsed.bind_ok rest
  have loaded := Except.ok.inj rest
  have value : r.value.settled = r.value :=
    Binary64.settled_of_not_isNaN (Binary64.isNaN_of_finite finite)
  unfold toExecution afterReading
  simp only [readId, readMetricId, Column.number_numberText, Column.status_name, readCreatedAt,
    value]
  unfold Recording.written Tracker.afterReading
  rw [← loaded]
  rfl

theorem toExecution_metricId {row : ExecutionRow} {e : MetricExecution}
    (read : row.toExecution = .ok e) : Column.id "metric_id" row.metricId = .ok e.metricId := by
  unfold toExecution at read
  obtain ⟨id, -, rest⟩ := Parsed.bind_ok read
  obtain ⟨metricId, readMetricId, rest⟩ := Parsed.bind_ok rest
  obtain ⟨lastValue, -, rest⟩ := Parsed.bind_ok rest
  obtain ⟨status, -, rest⟩ := Parsed.bind_ok rest
  obtain ⟨createdAt, -, rest⟩ := Parsed.bind_ok rest
  cases rest
  exact readMetricId

end ExecutionRow

namespace RelationalStore

open Database

/-- Rows are read after readings of metrics that are held as the executions are after them. -/
theorem toExecution_applyAll {s : RelationalStore} (keys : UniqueKeys s.database)
    (formed : WellFormed s.database) {policy : TransitionPolicy} {rs : List Recording}
    (distinct : (rs.map fun r => r.metric.id).Nodup) (held : ∀ r ∈ rs, Holds r.metric s)
    (finite : ∀ r ∈ rs, r.value.isFinite = true) {row : ExecutionRow}
    (stored : row ∈ s.database.executions) :
    (ExecutionRow.applyAll policy rs row).toExecution =
      row.toExecution.map (Recording.applyAll policy rs) := by
  have owner {e : MetricExecution} (read : row.toExecution = .ok e) :
      row.metricId = e.metricId.text := by
    obtain ⟨id, written, rfl⟩ := formed.executions row stored
    exact Column.id_text (ExecutionRow.toExecution_metricId read) ⟨id, rfl⟩
  have texts : rs.map (fun r => r.metric.id.text) =
      (rs.map fun r => r.metric.id).map EntityId.text := by
    rw [List.map_map]
    rfl
  by_cases member : row.metricId ∈ rs.map fun r => r.metric.id.text
  · -- The row is the one that the metric's execution has been read from.
    obtain ⟨r, reading, same⟩ := List.mem_map.mp member
    obtain ⟨other, found, read⟩ := (held r reading).row
    obtain ⟨otherStored, names⟩ := Store.find_some_key ExecutionRow.metricId found
    have equal : other = row :=
      List.inj_on_of_nodup_map keys.executionMetrics otherStored stored (names.trans same)
    rw [equal] at read
    have named : r.metric.execution.metricId = r.metric.id :=
      EntityId.text_injective ((owner read).symm.trans same.symm)
    have distinctTexts : (rs.map fun r => r.metric.id.text).Nodup := by
      rw [texts]
      exact distinct.map fun _ _ same => EntityId.text_injective same
    have rowAfter : ExecutionRow.applyAll policy rs row = row.afterReading policy r :=
      Store.changeFor_of_mem distinctTexts reading same
    rw [rowAfter, ExecutionRow.toExecution_afterReading read (finite r reading), read]
    exact congrArg Except.ok (Recording.applyAll_of_mem distinct reading named).symm
  · have kept : ExecutionRow.applyAll policy rs row = row := Store.changeFor_of_absent member
    rw [kept]
    cases read : row.toExecution with
    | error fault => rfl
    | ok e =>
        have unread : e.metricId ∉ rs.map fun r => r.metric.id := by
          intro named
          apply member
          rw [owner read, texts]
          exact List.mem_map_of_mem named
        have same : Recording.applyAll policy rs e = e := Store.changeFor_of_absent unread
        exact congrArg Except.ok same.symm

/-! ### Reads -/

structure ReadAs (change : MetricExecution → MetricExecution)
    (rowChange : ExecutionRow → ExecutionRow) (db : Database) : Prop where
  owner : ∀ row, (rowChange row).metricId = row.metricId
  created : ∀ row, (rowChange row).createdAt = row.createdAt
  reads : ∀ row ∈ db.executions, (rowChange row).toExecution = row.toExecution.map change

section

variable {change : MetricExecution → MetricExecution} {rowChange : ExecutionRow → ExecutionRow}
  {s : RelationalStore}

theorem executionRow_mapExecutionRows (readAs : ReadAs change rowChange s.database)
    (owner : String) :
    (s.mapExecutionRows rowChange).database.executions.find? (fun row => row.metricId = owner) =
      (s.database.executions.find? fun row => row.metricId = owner).map rowChange := by
  have search : (fun row : ExecutionRow => decide (row.metricId = owner)) ∘ rowChange =
      fun row => decide (row.metricId = owner) := by
    funext row
    rw [Function.comp_apply, readAs.owner]
  unfold mapExecutionRows
  rw [List.find?_map, search]

theorem joined_mapExecutionRows (readAs : ReadAs change rowChange s.database)
    (rows : List MetricRow) :
    rows.filterMap (s.mapExecutionRows rowChange).database.join =
      (rows.filterMap s.database.join).map fun row => (row.1, rowChange row.2) := by
  rw [List.map_filterMap]
  apply List.filterMap_congr
  intro r _
  unfold join
  rw [executionRow_mapExecutionRows readAs, Option.map_map, Option.map_map]
  rfl

theorem toMetric_mapExecutionRows (readAs : ReadAs change rowChange s.database)
    {joined : MetricRow × ExecutionRow} {rows : List MetricRow}
    (member : joined ∈ rows.filterMap s.database.join) :
    joined.1.toMetric (rowChange joined.2) =
      (joined.1.toMetric joined.2).map (Metric.mapExecution change) := by
  obtain ⟨r, _, found⟩ := List.mem_filterMap.mp member
  obtain ⟨rfl, present⟩ := join_eq_some found
  obtain ⟨stored, names⟩ := Store.find_some_key ExecutionRow.metricId present
  have plain : { joined.2 with metricId := joined.1.id } = joined.2 := by
    rw [← names]
  have changed : { rowChange joined.2 with metricId := joined.1.id } = rowChange joined.2 := by
    rw [← names, ← readAs.owner joined.2]
  apply MetricRow.toMetric_through
  rw [plain, changed]
  exact readAs.reads joined.2 stored

theorem metricsOf_mapExecutionRows (readAs : ReadAs change rowChange s.database)
    (groupId : String) :
    (s.mapExecutionRows rowChange).database.metricsOf groupId =
      (s.database.metricsOf groupId).map (List.map (Metric.mapExecution change)) := by
  let rows := s.database.metrics.filter fun r => r.metricsGroupId = groupId
  let joined := rows.filterMap s.database.join
  have ordered : (joined.map fun row => (row.1, rowChange row.2)).mergeSort
      (fun a b => a.1.createdAt ≤ b.1.createdAt) =
        (joined.mergeSort fun a b => a.1.createdAt ≤ b.1.createdAt).map
          fun row => (row.1, rowChange row.2) := by
    symm
    apply List.map_mergeSort
    intro a _ b _
    rfl
  unfold metricsOf
  change (((rows.filterMap (s.mapExecutionRows rowChange).database.join).mergeSort _).mapM _) = _
  rw [joined_mapExecutionRows readAs, ordered, List.mapM_map]
  apply Parsed.mapM_through
  intro joined member
  exact toMetric_mapExecutionRows readAs ((List.mergeSort_perm _ _).subset member)

theorem readGroups_mapExecutionRows (readAs : ReadAs change rowChange s.database)
    (rows : List GroupRow) :
    (s.mapExecutionRows rowChange).database.readGroups rows =
      (s.database.readGroups rows).map (List.map (MetricsGroup.mapExecutions change)) := by
  unfold readGroups
  rw [Parsed.map_bind]
  congr 1
  funext groups
  apply Parsed.mapM_through
  intro g _
  rw [metricsOf_mapExecutionRows readAs, Parsed.bind_map, Parsed.map_bind]
  rfl

theorem listedExecutions_mapExecutionRows (readAs : ReadAs change rowChange s.database) :
    (((s.database.executions.map rowChange).mergeSort
        fun a b => a.createdAt ≤ b.createdAt).mapM ExecutionRow.toExecution) =
      ((s.database.executions.mergeSort fun a b => a.createdAt ≤ b.createdAt).mapM
        ExecutionRow.toExecution).map (List.map change) := by
  have ordered : (s.database.executions.map rowChange).mergeSort
      (fun a b => a.createdAt ≤ b.createdAt) =
        (s.database.executions.mergeSort fun a b => a.createdAt ≤ b.createdAt).map
          rowChange := by
    symm
    apply List.map_mergeSort
    intro a _ b _
    rw [readAs.created, readAs.created]
  rw [ordered, List.mapM_map]
  apply Parsed.mapM_through
  intro row member
  exact readAs.reads row ((List.mergeSort_perm _ _).subset member)

theorem answersThrough (readAs : ReadAs change rowChange s.database) :
    AnswersThrough change s (s.mapExecutionRows rowChange) where
  source _ := rfl
  sources _ _ := rfl
  group id := by
    have read := readGroups_mapExecutionRows readAs
      (s.database.groups.filter fun r => r.id = id.text)
    apply whenOpen_through (s.closed_mapExecutionRows rowChange)
    change (parsed ((s.mapExecutionRows rowChange).database.readGroups
      (s.database.groups.filter fun r => r.id = id.text))).map _ = _
    rw [read, parsed_map]
    cases parsed (s.database.readGroups (s.database.groups.filter fun r => r.id = id.text)) with
    | error fault => rfl
    | ok groups => exact congrArg Except.ok (List.head?_map ..)
  groups := by
    have read := readGroups_mapExecutionRows readAs
      (s.database.groups.mergeSort fun a b => a.createdAt ≤ b.createdAt)
    apply whenOpen_through (s.closed_mapExecutionRows rowChange)
    exact (congrArg parsed read).trans (parsed_map _ _)
  metric id := by
    have joined : ((s.mapExecutionRows rowChange).database.metrics.filter
        fun r => r.id = id.text).filterMap (s.mapExecutionRows rowChange).database.join =
          ((s.database.metrics.filter fun r => r.id = id.text).filterMap s.database.join).map
            fun row => (row.1, rowChange row.2) := joined_mapExecutionRows readAs _
    apply whenOpen_through (s.closed_mapExecutionRows rowChange)
    rw [joined]
    cases first : (s.database.metrics.filter fun r => r.id = id.text).filterMap
        s.database.join with
    | nil => rfl
    | cons row rest =>
        have read := toMetric_mapExecutionRows readAs (first ▸ List.mem_cons_self)
        simp only [List.map_cons, read, parsed_map]
        cases parsed (row.1.toMetric row.2) <;> rfl
  execution id := by
    have found := executionRow_mapExecutionRows readAs id.text
    apply whenOpen_through (s.closed_mapExecutionRows rowChange)
    rw [found]
    cases first : s.database.executions.find? fun r => r.metricId = id.text with
    | none => rfl
    | some row =>
        have read := readAs.reads row (List.mem_of_find?_eq_some first)
        simp only [Option.map_some, read, parsed_map]
        cases parsed row.toExecution <;> rfl
  executions := by
    have read := listedExecutions_mapExecutionRows readAs
    apply whenOpen_through (s.closed_mapExecutionRows rowChange)
    exact (congrArg parsed read).trans (parsed_map _ _)

end

/-! ### Evaluations -/

theorem findMetricExecution_names {s : RelationalStore} {id : EntityId} {e : MetricExecution}
    (answered : Store.findMetricExecution id s = .ok (some e)) : e.metricId = id := by
  obtain ⟨-, result⟩ := whenOpen_ok answered
  cases found : s.database.executions.find? fun r => r.metricId = id.text with
  | none =>
      rw [found] at result
      cases result
  | some row =>
      obtain ⟨-, names⟩ := Store.find_some_key ExecutionRow.metricId found
      rw [found] at result
      cases read : row.toExecution with
      | error fault =>
          simp only [read] at result
          cases result
      | ok other =>
          simp only [read] at result
          cases result
          have named := ExecutionRow.toExecution_metricId read
          rw [names, Column.id_idText] at named
          exact (Except.ok.inj named).symm

theorem answersThrough_readings {s : RelationalStore} (keys : UniqueKeys s.database)
    (formed : WellFormed s.database) (policy : TransitionPolicy) {rs : List Recording}
    (distinct : (rs.map fun r => r.metric.id).Nodup) (held : ∀ r ∈ rs, Holds r.metric s)
    (finite : ∀ r ∈ rs, r.value.isFinite = true) :
    AnswersThrough (Recording.applyAll policy rs) s
      (s.mapExecutionRows (ExecutionRow.applyAll policy rs)) := by
  apply answersThrough
  refine { owner := ?_, created := ?_, reads := ?_ }
  · intro row
    apply Store.owner_changeFor
    intro r other
    rfl
  · intro row
    unfold ExecutionRow.applyAll Store.changeFor
    split <;> rfl
  · intro row stored
    exact toExecution_applyAll keys formed distinct held finite stored

/-- In a database that only the services have written to, a successful evaluation has its effect,
and changes the rows of the executions of the metrics with a reading only. -/
theorem effect {engine : Engine} {ask : Nat → Driver → List UInt8 → List UInt8 → Asking}
    {groupId : EntityId} {limits : QueryPhase.Limits} {world : World RelationalStore}
    {result : Except Error GroupEvaluation × World RelationalStore} {report : GroupEvaluation}
    (keys : UniqueKeys world.store.database) (formed : WellFormed world.store.database)
    (evaluates : Evaluation.Evaluates engine ask groupId limits world result)
    (succeeded : result.1 = .ok report) :
    ∃ g, Evaluation.Effect engine ask groupId world result.2.store report g ∧
      result.2.store = world.store.mapExecutionRows
        (ExecutionRow.applyAll engine.settings.transitionPolicy
          ((Evaluation.outcomes engine ask world g).filterMap Outcome.recording?)) := by
  obtain ⟨g, loaded, executions, taken⟩ :=
    evaluates.takes (takesReadings _) (fun g loaded => holds keys loaded) succeeded
  obtain ⟨distinct, held⟩ := holds keys loaded
  obtain ⟨ids, ofGroup⟩ :=
    Evaluation.readings_of_metrics (Evaluation.outcomes_metrics engine ask world g) distinct
  rw [foldl_take _ ids] at taken
  refine ⟨g, Evaluation.effect_of_answers loaded executions distinct ?_ ?_ ?_, taken⟩
  · intro m member
    obtain ⟨row, found, read⟩ := (held m member).row
    exact findMetricExecution_of_row (held m member).opened found read
  · intro id e found
    exact findMetricExecution_names found
  · rw [taken]
    refine answersThrough_readings keys formed _ ids (fun r member => held r.metric (ofGroup r member))
      fun r member => ?_
    obtain ⟨outcome, _, reading⟩ := List.mem_filterMap.mp member
    exact Outcome.recording_finite reading

end RelationalStore

end RolloutWatch

import RolloutWatch.Proofs.Evaluation.Report
import RolloutWatch.Proofs.Store.Rows

/-!
What a successful evaluation does to a store. The reading of each metric goes into the
execution that the metric has been loaded with. Every read of the store answers afterwards as
it did before, but with these executions in their new state.
-/

namespace RolloutWatch

namespace Metric

def mapExecution (change : MetricExecution → MetricExecution) (m : Metric) : Metric :=
  { m with execution := change m.execution }

end Metric

namespace MetricsGroup

def mapExecutions (change : MetricExecution → MetricExecution) (g : MetricsGroup) :
    MetricsGroup :=
  { g with metrics := g.metrics.map (Metric.mapExecution change) }

end MetricsGroup

namespace Recording

/-- The execution that the metric has been loaded with, after the reading. -/
def written (policy : TransitionPolicy) (r : Recording) : MetricExecution :=
  Tracker.afterReading policy r.metric r.value r.metric.execution

def applyAll (policy : TransitionPolicy) (rs : List Recording) (e : MetricExecution) :
    MetricExecution :=
  Store.changeFor (fun r : Recording => r.metric.id) MetricExecution.metricId
    (fun r e => Tracker.afterReading policy r.metric r.value e) rs e

theorem applyAll_metricId (policy : TransitionPolicy) (rs : List Recording)
    (e : MetricExecution) : (applyAll policy rs e).metricId = e.metricId := by
  apply Store.owner_changeFor
  intro r row
  rfl

theorem applyAll_of_mem {policy : TransitionPolicy} {rs : List Recording} {r : Recording}
    (distinct : (rs.map fun r => r.metric.id).Nodup) (member : r ∈ rs)
    (names : r.metric.execution.metricId = r.metric.id) :
    applyAll policy rs r.metric.execution = r.written policy :=
  Store.changeFor_of_mem distinct member names.symm

end Recording

variable {σ : Type} [Store σ]

/-- Every read answers as before, with a change to the executions in its answer. -/
structure AnswersThrough (change : MetricExecution → MetricExecution) (before after : σ) :
    Prop where
  source : ∀ id, Store.findDataSource id after = Store.findDataSource id before
  sources : ∀ workspaceId health,
    Store.listDataSources workspaceId health after =
      Store.listDataSources workspaceId health before
  group : ∀ id, Store.findMetricsGroup id after =
    (Store.findMetricsGroup id before).map (Option.map (MetricsGroup.mapExecutions change))
  groups : Store.listMetricsGroups after =
    (Store.listMetricsGroups before).map (List.map (MetricsGroup.mapExecutions change))
  metric : ∀ id, Store.findMetric id after =
    (Store.findMetric id before).map (Option.map (Metric.mapExecution change))
  execution : ∀ id, Store.findMetricExecution id after =
    (Store.findMetricExecution id before).map (Option.map change)
  executions : Store.listMetricExecutions after =
    (Store.listMetricExecutions before).map (List.map change)

namespace AnswersThrough

variable {policy : TransitionPolicy} {rs : List Recording} {before after : σ}

theorem execution_of_reading (answers : AnswersThrough (Recording.applyAll policy rs) before after)
    (distinct : (rs.map fun r => r.metric.id).Nodup) {r : Recording} (member : r ∈ rs)
    (held : Store.findMetricExecution r.metric.id before = .ok (some r.metric.execution))
    (names : r.metric.execution.metricId = r.metric.id) :
    Store.findMetricExecution r.metric.id after = .ok (some (r.written policy)) := by
  rw [answers.execution, held, ← Recording.applyAll_of_mem distinct member names]
  rfl

theorem execution_of_absent (answers : AnswersThrough (Recording.applyAll policy rs) before after)
    (named : ∀ id e, Store.findMetricExecution id before = .ok (some e) → e.metricId = id)
    {id : EntityId} (absent : id ∉ rs.map fun r => r.metric.id) :
    Store.findMetricExecution id after = Store.findMetricExecution id before := by
  rw [answers.execution]
  cases found : Store.findMetricExecution id before with
  | error fault => rfl
  | ok answer =>
      cases answer with
      | none => rfl
      | some e =>
          have same : Recording.applyAll policy rs e = e :=
            Store.changeFor_of_absent (by rw [named id e found]; exact absent)
          exact congrArg (fun e => Except.ok (some e)) same

end AnswersThrough

/-- What a store does with a reading of a metric that it holds with its execution. It does not
let go of the other metrics. -/
structure TakesReadings (policy : TransitionPolicy) (holds : Metric → σ → Prop)
    (take : Recording → σ → σ) : Prop where
  record : ∀ (r : Recording) (world : World σ), holds r.metric world.store →
    Tracker.record policy r.metric r.value world =
      (.ok (r.written policy), { world with store := take r world.store })
  others : ∀ (r : Recording) (m : Metric) (s : σ), holds r.metric s → holds m s →
    m.id ≠ r.metric.id → holds m (take r s)

namespace Evaluation

section

variable {policy : TransitionPolicy} {holds : Metric → σ → Prop} {take : Recording → σ → σ}

/-- Readings of different metrics are taken one after the other. -/
theorem recordAll_takes (takes : TakesReadings policy holds take) {rs : List Recording}
    (world : World σ) (distinct : (rs.map fun r => r.metric.id).Nodup)
    (held : ∀ r ∈ rs, holds r.metric world.store) :
    recordAll policy rs world =
      (.ok (rs.map (Recording.written policy)),
        { world with store := rs.foldl (fun s r => take r s) world.store }) := by
  induction rs generalizing world with
  | nil => rfl
  | cons r rest ih =>
      obtain ⟨absent, restDistinct⟩ := List.nodup_cons.mp distinct
      obtain ⟨here, later⟩ := List.forall_mem_cons.mp held
      have restHeld : ∀ other ∈ rest, holds other.metric (take r world.store) := by
        intro other member
        refine takes.others r other.metric world.store here (later other member) fun same => ?_
        exact absent (List.mem_map.mpr ⟨other, member, same⟩)
      have others := ih { world with store := take r world.store } restDistinct restHeld
      rw [recordAll_cons, takes.record r world here]
      simp only [others, List.map_cons, List.foldl_cons]

/-- An evaluation that succeeds has taken the readings of its outcomes, in their order. -/
theorem Evaluates.takes {engine : Engine}
    {ask : Nat → Driver → List UInt8 → List UInt8 → Asking} {groupId : EntityId}
    {limits : QueryPhase.Limits} {world : World σ}
    {result : Except Error GroupEvaluation × World σ} {report : GroupEvaluation}
    (takes : TakesReadings engine.settings.transitionPolicy holds take)
    (loads : ∀ g, Store.findMetricsGroup groupId world.store = .ok (some g) →
      (g.metrics.map Metric.id).Nodup ∧ ∀ m ∈ g.metrics, holds m world.store)
    (evaluates : Evaluates engine ask groupId limits world result)
    (succeeded : result.1 = .ok report) :
    ∃ g, Store.findMetricsGroup groupId world.store = .ok (some g) ∧
      report.executions = ((outcomes engine ask world g).filterMap Outcome.recording?).map
        (Recording.written engine.settings.transitionPolicy) ∧
      result.2.store = ((outcomes engine ask world g).filterMap Outcome.recording?).foldl
        (fun s r => take r s) world.store := by
  obtain ⟨g, loaded, -, tracked, store⟩ := evaluates.succeeded succeeded
  obtain ⟨distinct, held⟩ := loads g loaded
  obtain ⟨readingsDistinct, ofGroup⟩ :=
    readings_of_metrics (outcomes_metrics engine ask world g) distinct
  have all := recordAll_takes takes world readingsDistinct fun r member =>
    held r.metric (ofGroup r member)
  unfold trackAll at tracked store
  rw [track_apply, all] at tracked store
  cases tracked
  exact ⟨g, loaded, rfl, store⟩

end

/-- What a successful evaluation of a group has done, with an outcome for each of its metrics.
The metrics are those of the group as it has been loaded, and their outcomes what comes of them. -/
structure Effect (engine : Engine) (ask : Nat → Driver → List UInt8 → List UInt8 → Asking)
    (groupId : EntityId) (world : World σ) (after : σ) (report : GroupEvaluation)
    (g : MetricsGroup) : Prop where
  loaded : Store.findMetricsGroup groupId world.store = .ok (some g)
  metrics : (outcomes engine ask world g).map Outcome.metric = g.metrics
  /-- A reading is the last value of its metric's execution, and has moved its status. -/
  recorded : ∀ outcome ∈ outcomes engine ask world g, ∀ result value,
    outcome.answer = .ok result → Reading.ofResult? result = some value →
    ∃ old, Store.findMetricExecution outcome.metric.id world.store = .ok (some old) ∧
      Store.findMetricExecution outcome.metric.id after =
        .ok (some
          { old with
            lastValue := value
            status := Tracker.transition old.status (outcome.metric.isMet value)
              engine.settings.transitionPolicy })
  /-- The report lists the executions of the metrics with a reading, in the group's order. -/
  listed : report.executions.map MetricExecution.metricId =
    ((outcomes engine ask world g).filter Outcome.hasReading).map fun outcome => outcome.metric.id
  current : ∀ e ∈ report.executions,
    Store.findMetricExecution e.metricId after = .ok (some e)
  /-- The executions of other metrics are as before. -/
  others : ∀ id, (∀ outcome ∈ outcomes engine ask world g,
      outcome.hasReading → outcome.metric.id ≠ id) →
    Store.findMetricExecution id after = Store.findMetricExecution id world.store
  answers : AnswersThrough
    (Recording.applyAll engine.settings.transitionPolicy
      ((outcomes engine ask world g).filterMap Outcome.recording?)) world.store after

theorem not_read_of_others {outcomes : List Outcome} {id : EntityId}
    (others : ∀ outcome ∈ outcomes, outcome.hasReading → outcome.metric.id ≠ id) :
    id ∉ (outcomes.filterMap Outcome.recording?).map fun r => r.metric.id := by
  intro member
  obtain ⟨r, reading, same⟩ := List.mem_map.mp member
  obtain ⟨outcome, present, given⟩ := List.mem_filterMap.mp reading
  have read : outcome.hasReading = true := by
    unfold Outcome.hasReading
    rw [given]
    rfl
  refine others outcome present read ?_
  rw [← Outcome.recording_metric given]
  exact same

/-- The effect is known once the reads are: the readings are those of different metrics, and
each of these has been loaded with its execution. -/
theorem effect_of_answers {engine : Engine}
    {ask : Nat → Driver → List UInt8 → List UInt8 → Asking} {groupId : EntityId}
    {world : World σ} {after : σ} {report : GroupEvaluation} {g : MetricsGroup}
    (loaded : Store.findMetricsGroup groupId world.store = .ok (some g))
    (executions : report.executions =
      ((outcomes engine ask world g).filterMap Outcome.recording?).map
        (Recording.written engine.settings.transitionPolicy))
    (distinct : (g.metrics.map Metric.id).Nodup)
    (held : ∀ m ∈ g.metrics,
      Store.findMetricExecution m.id world.store = .ok (some m.execution))
    (named : ∀ id e, Store.findMetricExecution id world.store = .ok (some e) → e.metricId = id)
    (answers : AnswersThrough
      (Recording.applyAll engine.settings.transitionPolicy
        ((outcomes engine ask world g).filterMap Outcome.recording?)) world.store after) :
    Effect engine ask groupId world after report g := by
  have metrics := outcomes_metrics engine ask world g
  obtain ⟨ids, ofGroup⟩ := readings_of_metrics metrics distinct
  have heldReading : ∀ r ∈ (outcomes engine ask world g).filterMap Outcome.recording?,
      Store.findMetricExecution r.metric.id world.store = .ok (some r.metric.execution) :=
    fun r member => held r.metric (ofGroup r member)
  have names : ∀ r ∈ (outcomes engine ask world g).filterMap Outcome.recording?,
      r.metric.execution.metricId = r.metric.id :=
    fun r member => named _ _ (heldReading r member)
  have stored : ∀ r ∈ (outcomes engine ask world g).filterMap Outcome.recording?,
      Store.findMetricExecution r.metric.id after =
        .ok (some (r.written engine.settings.transitionPolicy)) :=
    fun r member => answers.execution_of_reading ids member (heldReading r member) (names r member)
  refine
    { loaded, metrics, answers
      recorded := ?_
      listed := ?_
      current := ?_
      others := ?_ }
  · intro outcome member result value answered reading
    let r : Recording := { metric := outcome.metric, value }
    have given : r ∈ (outcomes engine ask world g).filterMap Outcome.recording? :=
      List.mem_filterMap.mpr
        ⟨outcome, member, Outcome.recording_eq_some.mpr ⟨result, answered, reading, rfl⟩⟩
    exact ⟨outcome.metric.execution, heldReading r given, stored r given⟩
  · have owners := congrArg (List.map Metric.id) (recordings_metrics (outcomes engine ask world g))
    rw [List.map_map, List.map_map] at owners
    rw [executions, List.map_map]
    exact (List.map_congr_left names).trans owners
  · intro e listed
    rw [executions] at listed
    obtain ⟨r, member, rfl⟩ := List.mem_map.mp listed
    have owner : (r.written engine.settings.transitionPolicy).metricId = r.metric.id :=
      names r member
    rw [owner]
    exact stored r member
  · intro id others
    exact answers.execution_of_absent named (not_read_of_others others)

end Evaluation

end RolloutWatch

import RolloutWatch.Proofs.Evaluation.Interleaved
import Mathlib.Data.List.Nodup

/-!
Failures of evaluations in a store that can record every metric of the groups it loads. Then no
reading is refused in the tracking phase, so that an evaluation that fails has failed before
it, and has written nothing.
-/

namespace RolloutWatch

variable {σ : Type} [Store σ]

/-- A property of metrics that a store can record. A recording keeps it for the others. -/
def Recordable (ready : EntityId → σ → Prop) : Prop :=
  ∀ (policy : TransitionPolicy) (m : Metric) (value : Binary64) (world : World σ),
    ready m.id world.store →
      ∃ e after, Tracker.record policy m value world = (.ok e, after) ∧
        ∀ id, id ≠ m.id → ready id world.store → ready id after.store

namespace Evaluation

theorem recordAll_ok {ready : EntityId → σ → Prop} (recordable : Recordable ready)
    (policy : TransitionPolicy) (rs : List Recording) (world : World σ)
    (distinct : (rs.map fun r => r.metric.id).Nodup)
    (all : ∀ r ∈ rs, ready r.metric.id world.store) :
    ∃ executions after, recordAll policy rs world = (.ok executions, after) := by
  induction rs generalizing world with
  | nil => exact ⟨[], world, rfl⟩
  | cons r rest ih =>
      obtain ⟨other, restDistinct⟩ := List.nodup_cons.mp distinct
      obtain ⟨e, between, first, kept⟩ :=
        recordable policy r.metric r.value world (all r List.mem_cons_self)
      -- A recording touches its own metric only, and the others are other metrics.
      have restReady : ∀ later ∈ rest, ready later.metric.id between.store := by
        intro later member
        apply kept
        · intro same
          exact other (List.mem_map.mpr ⟨later, member, same⟩)
        · exact all later (List.mem_cons_of_mem _ member)
      obtain ⟨executions, after, others⟩ := ih between restDistinct restReady
      refine ⟨e :: executions, after, ?_⟩
      rw [recordAll_cons, first]
      simp only [others]

theorem recordings_metrics (outcomes : List Outcome) :
    (outcomes.filterMap Outcome.recording?).map Recording.metric =
      (outcomes.filter Outcome.hasReading).map Outcome.metric := by
  induction outcomes with
  | nil => rfl
  | cons outcome rest ih =>
      cases reading : outcome.recording? with
      | none =>
          have dropped : ¬outcome.hasReading = true := by
            unfold Outcome.hasReading
            rw [reading]
            exact Bool.false_ne_true
          rw [List.filterMap_cons_none reading, List.filter_cons_of_neg dropped]
          exact ih
      | some r =>
          have kept : outcome.hasReading = true := by
            unfold Outcome.hasReading
            rw [reading]
            rfl
          rw [List.filterMap_cons_some reading, List.filter_cons_of_pos kept, List.map_cons,
            List.map_cons, Outcome.recording_metric reading, ih]

theorem recordings_sublist (outcomes : List Outcome) :
    ((outcomes.filterMap Outcome.recording?).map Recording.metric).Sublist
      (outcomes.map Outcome.metric) := by
  rw [recordings_metrics]
  exact List.filter_sublist.map _

theorem queryAll_metrics {engine : Engine} {limits : QueryPhase.Limits}
    {metrics : List Metric} {world asked : World σ} {outcomes : List Outcome}
    (answered : queryAll engine limits metrics world = (.ok outcomes, asked)) :
    outcomes.map Outcome.metric = metrics := by
  obtain ⟨s, run, -, verdict, -, -⟩ :=
    QueryPhase.run_comes engine (fun id => Store.findDataSource id world.store) limits
      world.registry metrics
  have concluded := verdict.trans (congrArg some (congrArg Prod.fst answered))
  rw [((QueryPhase.Reaches.sound run).outcomes concluded).1, List.map_map]
  exact QueryPhase.number_metrics 0 metrics

/-- The readings of a group are readings of its metrics, and no two are of one metric. -/
theorem readings_of_metrics {metrics : List Metric} {outcomes : List Outcome}
    (all : outcomes.map Outcome.metric = metrics) (distinct : (metrics.map Metric.id).Nodup) :
    ((outcomes.filterMap Outcome.recording?).map fun r => r.metric.id).Nodup ∧
      ∀ r ∈ outcomes.filterMap Outcome.recording?, r.metric ∈ metrics := by
  have sublist := recordings_sublist outcomes
  rw [all] at sublist
  have ids := distinct.sublist (sublist.map Metric.id)
  rw [List.map_map] at ids
  exact ⟨ids, fun r member => sublist.subset (List.mem_map_of_mem member)⟩

/-- If a store can record the metrics of the group it loads, the tracking phase cannot fail. -/
theorem exists_trackAll {ready : EntityId → σ → Prop} (recordable : Recordable ready)
    (engine : Engine) (ask : Nat → Driver → List UInt8 → List UInt8 → Asking) {world : World σ}
    {g : MetricsGroup}
    (loads : (g.metrics.map Metric.id).Nodup ∧ ∀ m ∈ g.metrics, ready m.id world.store) :
    ∃ report after, trackAll engine ask world g = (.ok report, after) := by
  obtain ⟨distinct, allReady⟩ := loads
  obtain ⟨readingsDistinct, ofGroup⟩ :=
    readings_of_metrics (outcomes_metrics engine ask world g) distinct
  obtain ⟨executions, after, done⟩ := recordAll_ok recordable engine.settings.transitionPolicy
    ((outcomes engine ask world g).filterMap Outcome.recording?) world readingsDistinct
    fun r member => allReady r.metric (ofGroup r member)
  unfold trackAll
  rw [track_apply, done]
  exact ⟨_, after, rfl⟩

/-- If a store can record the metrics of the group it loads, an evaluation that fails leaves the
store as it is. -/
theorem Evaluates.failed {ready : EntityId → σ → Prop} (recordable : Recordable ready)
    {engine : Engine} {ask : Nat → Driver → List UInt8 → List UInt8 → Asking}
    {groupId : EntityId} {limits : QueryPhase.Limits} {world : World σ}
    {result : Except Error GroupEvaluation × World σ} {fault : Error}
    (loads : ∀ g, Store.findMetricsGroup groupId world.store = .ok (some g) →
      (g.metrics.map Metric.id).Nodup ∧ ∀ m ∈ g.metrics, ready m.id world.store)
    (evaluates : Evaluates engine ask groupId limits world result)
    (failed : result.1 = .error fault) : result.2.store = world.store := by
  rcases evaluates.loaded with ⟨e, rfl⟩ | ⟨g, loaded⟩
  · rfl
  · rcases evaluates.cases_of_loaded loaded with ⟨e, -, untouched, -⟩ | ⟨-, answered, -⟩
    · exact untouched
    · -- Then it has come to the tracking phase, which cannot fail.
      obtain ⟨report, after, tracked⟩ := exists_trackAll recordable engine ask (loads g loaded)
      rw [tracked, failed] at answered
      cases answered

end Evaluation

end RolloutWatch

import RolloutWatch.Proofs.Evaluation.Evaluable
import RolloutWatch.Proofs.Evaluation.Report

/-!
Evaluations of a metric whose data source is not found. The query of the metric fails before any
driver is asked, so that the metric has no reading: the evaluation fails, or it is lenient and
reports the failure.
-/

namespace RolloutWatch

theorem QueryPhase.Frame.answer_of_missing (frame : QueryPhase.Frame)
    (registry : DriverRegistry) {entry : Nat × Metric}
    (missing : frame.findSource entry.2.dataSourceId = .ok none) :
    frame.answer registry entry = .error (.notFound .dataSource entry.2.dataSourceId) := by
  unfold answer access
  rw [missing]

variable {σ : Type} [Store σ]

namespace Evaluation

/-- A lenient evaluation has succeeded and does nothing for a metric but report a failure. -/
structure Unanswered (engine : Engine) (before after : σ) (report : GroupEvaluation)
    (g : MetricsGroup) (m : Metric) : Prop where
  lenient : engine.settings.failurePolicy = .bestEffort
  /-- There is a failure under the metric's name, which is this metric's own if no other metric of
  the group has the name. -/
  reported : ∃ fault, Keyed.get? m.resultKey report.failures = some fault ∧
    ((g.metrics.map Metric.resultKey).Nodup → fault = .notFound .dataSource m.dataSourceId)
  execution : Store.findMetricExecution m.id after = Store.findMetricExecution m.id before

section

variable {engine : Engine} {ask : Nat → Driver → List UInt8 → List UInt8 → Asking}
  {groupId : EntityId} {limits : QueryPhase.Limits} {world : World σ}
  {result : Except Error GroupEvaluation × World σ} {report : GroupEvaluation} {g : MetricsGroup}
  {m : Metric}

/-- What comes of a metric without its source, whatever the drivers are. -/
theorem exists_outcome_of_missing (engine : Engine)
    (ask : Nat → Driver → List UInt8 → List UInt8 → Asking) (member : m ∈ g.metrics)
    (missing : Store.findDataSource m.dataSourceId world.store = .ok none) :
    ∃ outcome ∈ outcomes engine ask world g, outcome.metric = m ∧
      outcome.answer = .error (.notFound .dataSource m.dataSourceId) := by
  rw [← QueryPhase.number_metrics 0 g.metrics] at member
  obtain ⟨entry, listed, rfl⟩ := List.mem_map.mp member
  exact ⟨_, List.mem_map_of_mem listed, rfl,
    QueryPhase.Frame.answer_of_missing (frame engine ask unlimited world) world.registry missing⟩

theorem failures_of_missing (member : m ∈ g.metrics)
    (missing : Store.findDataSource m.dataSourceId world.store = .ok none)
    (tracked : (trackAll engine ask world g).1 = .ok report) :
    ∃ fault, Keyed.get? m.resultKey report.failures = some fault ∧
      ((g.metrics.map Metric.resultKey).Nodup →
        fault = .notFound .dataSource m.dataSourceId) := by
  obtain ⟨outcome, present, rfl, failed⟩ := exists_outcome_of_missing engine ask member missing
  obtain ⟨-, failures⟩ := track_tables tracked
  have fault : outcome.fault? = some (.notFound .dataSource outcome.metric.dataSourceId) := by
    unfold Outcome.fault?
    rw [failed]
  obtain ⟨other, found⟩ : ∃ other, Keyed.get? outcome.key report.failures = some other := by
    rw [failures]
    exact Keyed.exists_get?_collect present fault []
  refine ⟨other, found, fun distinct => ?_⟩
  have keys : ((outcomes engine ask world g).map Outcome.key).Nodup := by
    rw [← outcomes_metrics engine ask world g, List.map_map] at distinct
    exact distinct
  have own : Keyed.get? outcome.key report.failures = outcome.fault? := by
    rw [failures]
    exact Keyed.get?_collect_of_nodup keys present
  exact Option.some.inj (found.symm.trans (own.trans fault))

/-- An evaluation changes nothing, or it does nothing for the metrics of its group that have no
source. -/
theorem Evaluates.of_missing {apply : TransitionPolicy → List Recording → σ → σ} {s : σ}
    (evaluable : Evaluable apply s) {sourceId : EntityId}
    (missing : Store.findDataSource sourceId s = .ok none) (here : world.store = s)
    (evaluates : Evaluates engine ask groupId limits world result) :
    (∃ fault, result.1 = .error fault ∧ result.2.store = s) ∨
      ∃ report g, result.1 = .ok report ∧ Store.findMetricsGroup groupId s = .ok (some g) ∧
        ∀ m ∈ g.metrics, m.dataSourceId = sourceId →
          Unanswered engine s result.2.store report g m := by
  cases answered : result.1 with
  | error fault => exact .inl ⟨fault, rfl, evaluable.failed here evaluates answered⟩
  | ok report =>
      obtain ⟨g, effect, -⟩ := evaluable.succeeded here evaluates answered
      obtain ⟨h, again, tolerated, tracked, -⟩ := evaluates.succeeded answered
      have same : h = g := Option.some.inj (Except.ok.inj (again.symm.trans effect.loaded))
      refine .inr ⟨report, g, rfl, here ▸ effect.loaded, fun m member own => ?_⟩
      subst here own same
      obtain ⟨outcome, present, ofMetric, failed⟩ :=
        exists_outcome_of_missing engine ask member missing
      refine
        { lenient := tolerated.resolve_right fun all => ?_
          reported := failures_of_missing member missing tracked
          execution := effect.others m.id fun other listed read identifier => ?_ }
      · have answer := all outcome present
        rw [failed] at answer
        cases answer
      · have metric : other.metric = m :=
          List.inj_on_of_nodup_map (evaluable.distinct effect.loaded)
            (effect.metrics ▸ List.mem_map_of_mem listed) member identifier
        obtain ⟨entry, -, rfl⟩ := List.mem_map.mp listed
        change entry.2 = m at metric
        have unanswered : (frame engine ask unlimited world).answer world.registry entry =
            .error (.notFound .dataSource entry.2.dataSourceId) := by
          refine QueryPhase.Frame.answer_of_missing _ _ ?_
          rw [metric]
          exact missing
        change Outcome.hasReading (.ofEntry entry
          ((frame engine ask unlimited world).answer world.registry entry)) = true at read
        rw [unanswered] at read
        cases read

end

end Evaluation

end RolloutWatch

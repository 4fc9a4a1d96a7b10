import RolloutWatch.Proofs.Evaluation.Interleaved
import RolloutWatch.Proofs.Evaluation.Success

/-!
How many questions an evaluation has in progress, and how often it calls a driver. A task holds
its place as long as its question is in progress, and calls its driver once, on the way from its
admission to the question; so the counts follow from what holds in every course of the tasks.
-/

namespace RolloutWatch

namespace QueryPhase

variable {frame : Frame} {registry : DriverRegistry} {metrics : List Metric} {s : Tasks}

theorem permits_eq (settings : EvaluationSettings) :
    settings.permits = max 1 settings.maxConcurrency :=
  Nat.max_comm _ _

theorem Sound.asked_le (sound : Sound frame registry metrics s) :
    s.asked.length ≤ max 1 frame.engine.settings.maxConcurrency := by
  rw [← permits_eq]
  exact Nat.le_trans (Nat.le_add_left _ _) sound.places

theorem Sound.peak_le (sound : Sound frame registry metrics s) (kind : String) :
    QueryEvent.peak kind s.log ≤ max 1 frame.engine.settings.maxConcurrency := by
  rw [← permits_eq]
  exact Int.toNat_le.mpr (sound.logged.peak kind)

theorem number_nodup (index : Nat) (metrics : List Metric) : (number index metrics).Nodup :=
  (number_indices index metrics).1.imp fun less same => by
    rw [same] at less
    exact Nat.lt_irrefl _ less

theorem Called.among (called : Called frame registry metrics s) :
    s.called.Subperm (number 0 metrics) :=
  (List.sublist_append_right _ _).subperm.trans called.once

theorem Called.nodup (called : Called frame registry metrics s) : s.called.Nodup := by
  obtain ⟨some, permuted, sublist⟩ := called.among
  exact permuted.nodup_iff.mp ((number_nodup 0 metrics).sublist sublist)

end QueryPhase

namespace Evaluation

open QueryPhase

/-- In every course of the tasks, timeouts, cancellation and deadline included, at most so many
questions are in progress as there are places, and so many the log has counted at any time.
A driver is called at most once for a metric, and once it is for every metric that has access to
one if the evaluation concludes without an error. An evaluation by the clock takes one of these
courses up to its end, and logs what happens in it. -/
theorem questions_bounded_and_put_once :
    (∀ (frame : Frame) (registry : DriverRegistry) (metrics : List Metric) (s : Tasks),
      Reaches frame registry metrics s →
        s.asked.length ≤ max 1 frame.engine.settings.maxConcurrency ∧
        (∀ kind, QueryEvent.peak kind s.log ≤ max 1 frame.engine.settings.maxConcurrency) ∧
        s.called.Nodup ∧ (∀ entry ∈ s.called, entry ∈ number 0 metrics) ∧
        (s.log.filterMap QueryEvent.begun?).Sublist (s.called.map fun entry => entry.2.id) ∧
        ∀ outcomes, s.verdict = some (.ok outcomes) → ∀ entry ∈ number 0 metrics,
          (entry ∈ s.called ↔ frame.resolves registry entry.2 = true)) ∧
      ∀ {σ : Type} [Store σ] (engine : Engine) (limits : Limits) (groupId : EntityId)
        (world : World σ) (g : MetricsGroup),
        Store.findMetricsGroup groupId world.store = .ok (some g) →
        ∃ (s : Tasks) (answer : Except Error (List Outcome)) (elapsed : Nat),
          Reaches (Evaluation.frame engine (fun _ => Driver.ask engine.network) limits world)
            world.registry g.metrics s ∧
          s.Over ∧ s.verdict = some answer ∧
          evaluateWith engine groupId limits world =
            settle engine.settings.transitionPolicy g.id answer
              { world with
                registry := s.registry
                clock := world.clock + elapsed
                log := world.log ++ s.log } := by
  constructor
  · intro frame registry metrics s reached
    have sound := reached.sound
    exact ⟨sound.asked_le, sound.peak_le, sound.called.nodup, sound.called.among.subset,
      sound.logged.begun, fun outcomes verdict => (sound.outcomes verdict).2.2⟩
  · intro σ _ engine limits groupId world g loaded
    exact evaluateWith_course engine limits loaded

theorem resolves_of_answer {frame : Frame} {registry : DriverRegistry} {entry : Nat × Metric}
    (answered : (frame.answer registry entry).isOk = true) :
    frame.resolves registry entry.2 = true := by
  unfold Frame.answer at answered
  unfold Frame.resolves
  cases granted : (access frame.engine frame.findSource registry entry.2).1 with
  | error e =>
      rw [granted] at answered
      cases answered
  | ok line => rfl

theorem answering_canaries_called_once :
    ∃ g s,
      Store.findMetricsGroup watchedGroup.id (scriptedWorld fullScript MemoryStore.empty).store =
          .ok (some g) ∧
        g.metrics.map Metric.resultKey = ["errors", "latency"] ∧
        Reaches
          (frame sealingEngine (fun _ => Driver.ask sealingEngine.network) unlimited
            (scriptedWorld fullScript MemoryStore.empty))
          (scriptedWorld fullScript MemoryStore.empty).registry g.metrics s ∧
        s.asked.length ≤ 4 ∧ s.called.Nodup ∧ ∀ entry ∈ number 0 g.metrics, entry ∈ s.called := by
  obtain ⟨bounds, courses⟩ := questions_bounded_and_put_once
  obtain ⟨g, report, after, answers⟩ := memory_answers
  obtain ⟨s, answer, elapsed, reached, -, verdict, course⟩ :=
    courses sealingEngine unlimited watchedGroup.id (scriptedWorld fullScript MemoryStore.empty) g
      answers.loaded
  obtain ⟨atOnce, -, nodup, -, -, called⟩ := bounds _ _ _ s reached
  have settled := course.symm.trans answers.evaluated
  cases answer with
  | error e => cases settled
  | ok outcomes =>
      obtain ⟨all, tolerated, -⟩ := reached.sound.outcomes verdict
      refine ⟨g, s, answers.loaded, answers.keys, reached, atOnce, nodup, fun entry listed => ?_⟩
      refine (called outcomes verdict entry listed).mpr (resolves_of_answer ?_)
      rcases tolerated with lenient | answered
      · cases lenient
      · exact answered _ (all ▸ List.mem_map_of_mem listed)

end Evaluation

end RolloutWatch

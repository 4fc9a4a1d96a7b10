import RolloutWatch.Proofs.Evaluation.Scripted
import RolloutWatch.Proofs.Memory.Effect
import RolloutWatch.Proofs.Relational.Creation
import RolloutWatch.Proofs.Relational.Effect

/-!
The effect of a successful evaluation in the stores that the services lead to.
-/

namespace RolloutWatch.Evaluation

/-- Whatever the services have done before and whatever course it takes, a successful evaluation
takes the readings of its outcomes: it puts each reading into the execution of its metric, reports
these executions as they are stored, and leaves everything else as it was. -/
theorem successful_evaluation_effect (engine : Engine)
    (ask : Nat → Driver → List UInt8 → List UInt8 → Asking) (groupId : EntityId)
    (limits : QueryPhase.Limits) :
    (∀ {σ : Type} [Store σ] (world : World σ), HasCourses engine groupId limits world) ∧
      (∀ (turns : List Turn) (world : World MemoryStore)
        (result : Except Error GroupEvaluation × World MemoryStore) (report : GroupEvaluation),
        Turn.FreshRun turns .empty → world.store = Turn.run turns .empty →
        Evaluates engine ask groupId limits world result → result.1 = .ok report →
        ∃ g, Effect engine ask groupId world result.2.store report g ∧
          result.2.store = world.store.mapExecutions
            (Recording.applyAll engine.settings.transitionPolicy
              ((outcomes engine ask world g).filterMap Outcome.recording?))) ∧
      ∀ (world : World RelationalStore)
        (result : Except Error GroupEvaluation × World RelationalStore) (report : GroupEvaluation),
        RelationalStore.Reachable world.store →
        Evaluates engine ask groupId limits world result → result.1 = .ok report →
        ∃ g, Effect engine ask groupId world result.2.store report g ∧
          result.2.store = world.store.mapExecutionRows
            (ExecutionRow.applyAll engine.settings.transitionPolicy
              ((outcomes engine ask world g).filterMap Outcome.recording?)) := by
  refine ⟨fun world => hasCourses engine groupId limits world, ?_, ?_⟩
  · intro turns world result report fresh reached evaluates succeeded
    exact (MemoryStore.owned_of_run fresh reached).effect evaluates succeeded
  · intro world result report reachable evaluates succeeded
    exact RelationalStore.effect reachable.uniqueKeys reachable.wellFormed evaluates succeeded

/-! ### Canaries that answer -/

/-- The readings of the canaries are one, which meets the first one's condition, and two, which
does not meet the second one's. -/
def watchedStates : List (Binary64 × ExecutionStatus) :=
  [(.ofNat 1, .reached), (.ofNat 2, .active)]

def reportsStates (g : MetricsGroup) (report : GroupEvaluation) : Bool :=
  decide (g.metrics.map Metric.resultKey = ["errors", "latency"] ∧
    report.executions.map (fun e => (e.lastValue, e.status)) = watchedStates)

section

variable {σ : Type} [Store σ] (start : σ)

structure Answers (g : MetricsGroup) (report : GroupEvaluation) (after : World σ) : Prop where
  loaded : Store.findMetricsGroup watchedGroup.id (scriptedWorld fullScript start).store =
    .ok (some g)
  evaluated : evaluateWith sealingEngine watchedGroup.id unlimited
    (scriptedWorld fullScript start) = (.ok report, after)
  keys : g.metrics.map Metric.resultKey = ["errors", "latency"]
  states : report.executions.map (fun e => (e.lastValue, e.status)) = watchedStates

theorem exists_answers
    (found : Store.findDataSource (.ofNat 1) (Turn.run answeringTurns start) =
      .ok (some sealedSource))
    (stored : ((Store.findMetricsGroup watchedGroup.id
      (scriptedWorld fullScript start).store).toOption.join.any
        (reportsWith sealingEngine fullScript (scriptedWorld fullScript start) reportsStates)) =
          true) : ∃ g report after, Answers start g report after := by
  obtain ⟨g, report, after, loaded, evaluated, holds⟩ :=
    exists_report sealingEngine fullScript start rfl (fullScript_inTime _) rfl found stored
  obtain ⟨keys, states⟩ := of_decide_eq_true holds
  exact ⟨g, report, after, ⟨loaded, evaluated, keys, states⟩⟩

end

theorem memory_answers : ∃ g report after, Answers MemoryStore.empty g report after :=
  exists_answers _ rfl (by decide +kernel)

theorem relational_answers :
    ∃ g report after, Answers (RelationalStore.onDatabase .empty) g report after :=
  exists_answers _ rfl (by
    rw [findMetricsGroup_answering]
    decide +kernel)

theorem answering_canaries_effect :
    (∃ report after,
      evaluateWith sealingEngine watchedGroup.id unlimited
          (scriptedWorld fullScript MemoryStore.empty) = (.ok report, after) ∧
        report.executions.map (fun e => (e.lastValue, e.status)) = watchedStates ∧
        ∀ e ∈ report.executions,
          Store.findMetricExecution e.metricId after.store = .ok (some e)) ∧
      ∃ report after,
        evaluateWith sealingEngine watchedGroup.id unlimited
            (scriptedWorld fullScript (RelationalStore.onDatabase .empty)) = (.ok report, after) ∧
          report.executions.map (fun e => (e.lastValue, e.status)) = watchedStates ∧
          ∀ e ∈ report.executions,
            Store.findMetricExecution e.metricId after.store = .ok (some e) := by
  obtain ⟨courses, inMemory, inDatabase⟩ :=
    successful_evaluation_effect sealingEngine (fun _ => Driver.ask sealingEngine.network)
      watchedGroup.id unlimited
  constructor
  · obtain ⟨g, report, after, -, evaluated, -, states⟩ := memory_answers
    have course := (courses (scriptedWorld fullScript MemoryStore.empty)).clocked
    rw [evaluated] at course
    have fresh : Turn.FreshRun answeringTurns .empty := by decide +kernel
    obtain ⟨h, effect, -⟩ :=
      inMemory answeringTurns _ _ report fresh (scriptedWorld_store _ _) course rfl
    exact ⟨report, after, evaluated, states, effect.current⟩
  · obtain ⟨g, report, after, -, evaluated, -, states⟩ := relational_answers
    have course := (courses
      (scriptedWorld fullScript (RelationalStore.onDatabase .empty))).clocked
    rw [evaluated] at course
    obtain ⟨h, effect, -⟩ := inDatabase _ _ report (answering_reachable fullScript) course rfl
    exact ⟨report, after, evaluated, states, effect.current⟩

end RolloutWatch.Evaluation

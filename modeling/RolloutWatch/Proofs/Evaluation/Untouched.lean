import RolloutWatch.Proofs.Evaluation.Scripted
import RolloutWatch.Proofs.Memory.Recording
import RolloutWatch.Proofs.Relational.Recording

/-!
A failed evaluation writes nothing. In the stores that the services lead to, every metric of a
group that can be loaded can be recorded: in memory because metrics and executions come and go
together, and in a database because a group whose rows cannot be read is not loaded.
-/

namespace RolloutWatch

namespace Evaluation

/-- Whatever the services have done before, whatever course an evaluation takes, and however it
fails, it leaves the store as it was. -/
theorem failed_evaluation_untouched (engine : Engine)
    (ask : Nat → Driver → List UInt8 → List UInt8 → Asking) (groupId : EntityId)
    (limits : QueryPhase.Limits) :
    (∀ {σ : Type} [Store σ] (world : World σ), HasCourses engine groupId limits world) ∧
      (∀ (turns : List Turn) (world : World MemoryStore)
        (result : Except Error GroupEvaluation × World MemoryStore) (fault : Error),
        world.store = Turn.run turns .empty →
        Evaluates engine ask groupId limits world result → result.1 = .error fault →
        result.2.store = world.store) ∧
      ∀ (world : World RelationalStore)
        (result : Except Error GroupEvaluation × World RelationalStore) (fault : Error),
        RelationalStore.Reachable world.store →
        Evaluates engine ask groupId limits world result → result.1 = .error fault →
        result.2.store = world.store := by
  refine ⟨fun world => hasCourses engine groupId limits world, ?_, ?_⟩
  · intro turns world result fault reached evaluates failed
    have linked := MemoryStore.linked_of_run reached
    exact evaluates.failed MemoryStore.recordable (fun g loaded => linked.loads loaded) failed
  · intro world result fault reachable evaluates failed
    have keys := reachable.uniqueKeys
    exact evaluates.failed RelationalStore.recordable
      (fun g loaded => RelationalStore.loads keys loaded) failed

section

variable {σ : Type} [Store σ] (start : σ)

structure HalfAnswers (g : MetricsGroup) (fault : Error) (after : World σ) : Prop where
  loaded : Store.findMetricsGroup watchedGroup.id (scriptedWorld halfScript start).store =
    .ok (some g)
  evaluated : evaluateWith sealingEngine watchedGroup.id unlimited
    (scriptedWorld halfScript start) = (.error fault, after)
  half : (outcomes sealingEngine (fun _ => Driver.ask sealingEngine.network)
    (scriptedWorld halfScript start) g).map (fun outcome => outcome.answer.isOk) = [true, false]

theorem exists_halfAnswers
    (found : Store.findDataSource (.ofNat 1) (Turn.run answeringTurns start) =
      .ok (some sealedSource))
    (stored : ((Store.findMetricsGroup watchedGroup.id
      (scriptedWorld halfScript start).store).toOption.join.any fun g =>
        ofSource g && !(g.metrics.all fun m => (halfScript.answerFor m).isOk) &&
          decide ((scriptedOutcomes halfScript g).map (fun outcome => outcome.answer.isOk) =
            [true, false])) = true) : ∃ g fault after, HalfAnswers start g fault after := by
  obtain ⟨g, fault, after, loaded, scripted, evaluated, half⟩ :=
    exists_fault sealingEngine halfScript start rfl (halfScript_inTime _) rfl found rfl stored
  refine ⟨g, fault, after, loaded, evaluated, ?_⟩
  rw [scripted.outcomes]
  exact of_decide_eq_true half

end

theorem memory_halfAnswers : ∃ g fault after, HalfAnswers MemoryStore.empty g fault after :=
  exists_halfAnswers _ rfl (by decide +kernel)

theorem relational_halfAnswers :
    ∃ g fault after, HalfAnswers (RelationalStore.onDatabase .empty) g fault after :=
  exists_halfAnswers _ rfl (by
    rw [findMetricsGroup_answering]
    decide +kernel)

theorem half_answered_canaries_untouched :
    (∃ g fault after, HalfAnswers MemoryStore.empty g fault after ∧
      after.store = (scriptedWorld halfScript MemoryStore.empty).store) ∧
      ∃ g fault after, HalfAnswers (RelationalStore.onDatabase .empty) g fault after ∧
        after.store = (scriptedWorld halfScript (RelationalStore.onDatabase .empty)).store := by
  obtain ⟨courses, inMemory, inDatabase⟩ :=
    failed_evaluation_untouched sealingEngine (fun _ => Driver.ask sealingEngine.network)
      watchedGroup.id unlimited
  constructor
  · obtain ⟨g, fault, after, answers⟩ := memory_halfAnswers
    have course := (courses (scriptedWorld halfScript MemoryStore.empty)).clocked
    rw [answers.evaluated] at course
    exact ⟨g, fault, after, answers,
      inMemory answeringTurns _ _ fault (scriptedWorld_store _ _) course rfl⟩
  · obtain ⟨g, fault, after, answers⟩ := relational_halfAnswers
    have course := (courses
      (scriptedWorld halfScript (RelationalStore.onDatabase .empty))).clocked
    rw [answers.evaluated] at course
    exact ⟨g, fault, after, answers,
      inDatabase _ _ fault (answering_reachable halfScript) course rfl⟩

end Evaluation

end RolloutWatch

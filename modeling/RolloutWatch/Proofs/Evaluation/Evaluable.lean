import RolloutWatch.Proofs.Memory.Effect
import RolloutWatch.Proofs.Memory.Recording
import RolloutWatch.Proofs.Relational.Effect

/-!
What evaluations come to in a store, apart from how it keeps its tables. An evaluation fails and
leaves the store as it is, or it succeeds and leaves the store with the readings of its outcomes.
-/

namespace RolloutWatch

variable {σ : Type} [Store σ]

/-- Evaluations in the store either change nothing or have their effect. What readings do to the
store as a whole is given. -/
structure Evaluable (apply : TransitionPolicy → List Recording → σ → σ) (s : σ) : Prop where
  distinct {groupId : EntityId} {g : MetricsGroup}
    (loaded : Store.findMetricsGroup groupId s = .ok (some g)) : (g.metrics.map Metric.id).Nodup
  failed {engine : Engine} {ask : Nat → Driver → List UInt8 → List UInt8 → Asking}
    {groupId : EntityId} {limits : QueryPhase.Limits} {world : World σ}
    {result : Except Error GroupEvaluation × World σ} {fault : Error} (here : world.store = s)
    (evaluates : Evaluation.Evaluates engine ask groupId limits world result)
    (failed : result.1 = .error fault) : result.2.store = s
  succeeded {engine : Engine} {ask : Nat → Driver → List UInt8 → List UInt8 → Asking}
    {groupId : EntityId} {limits : QueryPhase.Limits} {world : World σ}
    {result : Except Error GroupEvaluation × World σ} {report : GroupEvaluation}
    (here : world.store = s)
    (evaluates : Evaluation.Evaluates engine ask groupId limits world result)
    (succeeded : result.1 = .ok report) :
    ∃ g, Evaluation.Effect engine ask groupId world result.2.store report g ∧
      result.2.store = apply engine.settings.transitionPolicy
        ((Evaluation.outcomes engine ask world g).filterMap Outcome.recording?) s

namespace MemoryStore

def applyReadings (policy : TransitionPolicy) (rs : List Recording) (s : MemoryStore) :
    MemoryStore :=
  s.mapExecutions (Recording.applyAll policy rs)

theorem Owned.evaluable {s : MemoryStore} (owned : Owned s) : Evaluable applyReadings s where
  distinct loaded := (owned.toLinked.loads loaded).1
  failed := by
    rintro engine ask groupId limits world result fault rfl evaluates failed
    exact evaluates.failed recordable (fun g loaded => owned.toLinked.loads loaded) failed
  succeeded := by
    rintro engine ask groupId limits world result report rfl evaluates succeeded
    exact owned.effect evaluates succeeded

end MemoryStore

namespace RelationalStore

open Database

def applyReadings (policy : TransitionPolicy) (rs : List Recording) (s : RelationalStore) :
    RelationalStore :=
  s.mapExecutionRows (ExecutionRow.applyAll policy rs)

theorem evaluable {s : RelationalStore} (keys : UniqueKeys s.database)
    (formed : WellFormed s.database) : Evaluable applyReadings s where
  distinct loaded := (loads keys loaded).1
  failed := by
    rintro engine ask groupId limits world result fault rfl evaluates failed
    exact evaluates.failed recordable (fun g loaded => loads keys loaded) failed
  succeeded := by
    rintro engine ask groupId limits world result report rfl evaluates succeeded
    exact effect keys formed evaluates succeeded

end RelationalStore

end RolloutWatch

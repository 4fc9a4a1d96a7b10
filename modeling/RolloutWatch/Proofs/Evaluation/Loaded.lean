import RolloutWatch.Proofs.Evaluation.Interleaved

/-!
Evaluations with other drivers loaded. A registry loads drivers as they are asked for, and answers
for a kind as it did before. Two query phases that differ in what has been loaded go the same way
step by step, so that an evaluation does not depend on the evaluations before it in this.
-/

namespace RolloutWatch

namespace QueryPhase

structure Alike (p q : Phase) : Prop where
  waiting : p.waiting = q.waiting
  running : p.running = q.running
  finished : p.finished = q.finished
  log : p.log = q.log
  answers : p.registry.answer = q.registry.answer

section

variable (engine : Engine) (findSource : EntityId → Except Error (Option DataSource))
  (limits : Limits) {p q : Phase}

theorem begin_alike {registry other : DriverRegistry} (answers : registry.answer = other.answer)
    (m : Metric) :
    (begin engine findSource registry m).1 = (begin engine findSource other m).1 ∧
      (begin engine findSource registry m).2.answer =
        (begin engine findSource other m).2.answer := by
  let limits : Limits := { cancelAfter := none, deadline := none }
  have same := access_answer engine findSource answers m
  have after := access_answers engine findSource registry m
  have otherAfter := access_answers engine findSource other m
  rw [begin_eq engine findSource limits registry (0, m),
    begin_eq engine findSource limits other (0, m)]
  generalize access engine findSource registry m = accessed at same after ⊢
  generalize access engine findSource other m = otherAccessed at same otherAfter ⊢
  obtain ⟨granted, loaded⟩ := accessed
  obtain ⟨otherGranted, otherLoaded⟩ := otherAccessed
  cases same
  cases granted <;> exact ⟨rfl, after.trans (answers.trans otherAfter.symm)⟩

theorem Alike.finishDue (alike : Alike p q) (now : Nat) :
    Alike (QueryPhase.finishDue now p) (QueryPhase.finishDue now q) := by
  obtain ⟨waiting, running, finished, log, answers⟩ := alike
  unfold QueryPhase.finishDue
  rw [running, finished, log]
  exact ⟨waiting, rfl, rfl, rfl, answers⟩

theorem Alike.enter (alike : Alike p q) (now index : Nat) (m : Metric) :
    Alike (QueryPhase.enter engine findSource now index m p)
      (QueryPhase.enter engine findSource now index m q) := by
  obtain ⟨waiting, running, finished, log, answers⟩ := alike
  obtain ⟨begun, after⟩ := begin_alike engine findSource answers m
  unfold QueryPhase.enter
  simp only [begun, running, finished, log]
  cases (begin engine findSource q.registry m).1.time <;> exact ⟨waiting, rfl, rfl, rfl, after⟩

theorem Alike.enterAll (alike : Alike p q) (now : Nat) (queue : List (Nat × Metric)) :
    Alike (QueryPhase.enterAll engine findSource now queue p)
      (QueryPhase.enterAll engine findSource now queue q) := by
  induction queue generalizing p q with
  | nil => exact ⟨rfl, alike.running, alike.finished, alike.log, alike.answers⟩
  | cons first rest ih =>
      unfold QueryPhase.enterAll
      rw [alike.running]
      split
      · exact ih (alike.enter engine findSource now first.1 first.2)
      · exact ⟨rfl, rfl, alike.finished, alike.log, alike.answers⟩

theorem Alike.round (alike : Alike p q) (now : Nat) :
    Alike (QueryPhase.round engine findSource now p) (QueryPhase.round engine findSource now q) := by
  have due := alike.finishDue now
  unfold QueryPhase.round
  simp only [due.waiting]
  exact due.enterAll engine findSource now _

theorem Alike.verdict (alike : Alike p q) (now : Nat) :
    verdict? engine limits now p = verdict? engine limits now q := by
  unfold verdict? firstFailure? isDone
  rw [alike.waiting, alike.running, alike.finished]

theorem Alike.advance (alike : Alike p q) (fuel now : Nat) :
    (QueryPhase.advance engine findSource limits fuel now p).answer =
      (QueryPhase.advance engine findSource limits fuel now q).answer := by
  induction fuel generalizing now p q with
  | zero => rfl
  | succ fuel ih =>
      have next : nextDue? p = nextDue? q := by
        unfold nextDue?
        rw [alike.running]
      unfold QueryPhase.advance
      rw [next, alike.finished]
      cases nextDue? q with
      | none => rfl
      | some due =>
          simp only
          cases interruption? limits due with
          | some interruption => rfl
          | none =>
              have after := alike.round engine findSource due
              simp only [after.verdict engine limits]
              split
              · rfl
              · exact ih after due

/-- The answer of a phase depends on the answers of the registry only. -/
theorem run_alike {registry other : DriverRegistry} (answers : registry.answer = other.answer)
    (metrics : List Metric) :
    (run engine findSource limits registry metrics).answer =
      (run engine findSource limits other metrics).answer := by
  have alike : Alike
      { waiting := number 0 metrics, running := [], finished := [], registry, log := [] }
      { waiting := number 0 metrics, running := [], finished := [], registry := other
        log := [] } :=
    ⟨rfl, rfl, rfl, rfl, answers⟩
  have after := alike.round engine findSource 0
  unfold run
  simp only [alike.verdict engine limits, after.verdict engine limits]
  split
  · rfl
  · split
    · rfl
    · split
      · rfl
      · exact after.advance engine findSource limits _ _

end

end QueryPhase

variable {σ : Type} [Store σ]

namespace Evaluation

structure Resembles (world other : World σ) : Prop where
  sources : ∀ id, Store.findDataSource id world.store = Store.findDataSource id other.store
  answers : world.registry.answer = other.registry.answer

theorem Resembles.queryAll {world other : World σ} (resembles : Resembles world other)
    (engine : Engine) (limits : QueryPhase.Limits) (metrics : List Metric) :
    (Evaluation.queryAll engine limits metrics world).1 =
      (Evaluation.queryAll engine limits metrics other).1 := by
  unfold Evaluation.queryAll
  rw [funext resembles.sources]
  exact QueryPhase.run_alike _ _ _ resembles.answers metrics

/-- The query phase loads drivers that the registry answers with anyhow. -/
theorem queryAll_answers (engine : Engine) (limits : QueryPhase.Limits) (metrics : List Metric)
    (world : World σ) :
    (queryAll engine limits metrics world).2.registry.answer = world.registry.answer := by
  obtain ⟨s, run, -, -, registry, -⟩ :=
    QueryPhase.run_comes engine (fun id => Store.findDataSource id world.store) limits
      world.registry metrics
  unfold queryAll
  simp only
  rw [← registry]
  exact (QueryPhase.Reaches.sound run).answered.answers

end Evaluation

end RolloutWatch

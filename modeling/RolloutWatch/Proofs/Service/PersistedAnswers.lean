import RolloutWatch.Proofs.Memory.Persisted
import RolloutWatch.Proofs.Relational.Persisted

/-!
The answers of the tracker in the stores that the services lead to.
-/

namespace RolloutWatch.Tracker

/-- Whatever the services have done in memory and in a database, what a recording answers is what is
held afterwards. What an update answers is held if its metric and its time are those of the stored
execution, and only then. In a database NaNs are read back alike, and executions can be listed if
they have been created in common years. -/
theorem answers_as_stored {turns : List Turn} (fresh : Turn.FreshRun turns .empty)
    {world : World MemoryStore} (reached : world.store = Turn.run turns .empty)
    {database : World RelationalStore} (reachable : database.store.Reachable) :
    (AnswersAsStored id world ∧ (world.store.closed = false → Readable world)) ∧
      AnswersAsStored Binary64.settled database ∧
        (database.store.Dated → database.store.closed = false → Readable database) := by
  have owned := MemoryStore.owned_of_run fresh reached
  have keeps := RelationalStore.keepsState reachable.uniqueKeys reachable.wellFormed
  exact ⟨⟨owned.keepsState.answersAsStored, MemoryStore.readable_of_open⟩,
    keeps.answersAsStored, RelationalStore.Dated.readable⟩

/-! ### A canary with an update -/

def trackedWorld {σ : Type} [Store σ] (start : σ) : World σ :=
  (Canary.turn .listGroups 0).world (Turn.run Canary.turns start)

/-- The execution of the canary's later metric after a reading that meets the condition, by its
identifier. The metric is left open. -/
def unnamedExecution : MetricExecution where
  id := .ofNat 200
  metricId := .nil
  lastValue := .ofMagnitude false 1
  status := .reached
  createdAt := .epoch

def Restates {σ : Type} [Store σ] (e : MetricExecution) (world : World σ) : Prop :=
  ∃ (row : MetricExecution) (after : World σ),
    update e world = (.ok e, after) ∧ row.id = e.id ∧ Persisted (row.withStateOf e) after

def RecordsOne {σ : Type} [Store σ] (m : Metric) (world : World σ) : Prop :=
  ∃ (x : MetricExecution) (after : World σ),
    record .latching m (.ofNat 1) world = (.ok x, after) ∧ Persisted x after

theorem trackedWorld_dated :
    RelationalStore.Dated (trackedWorld (RelationalStore.onDatabase .empty)).store := by
  have common (call : ServiceCall) (first : Nat) : (Canary.turn call first).InCommonYears := by
    rintro t ⟨reading, -, rfl⟩
    change Instant.epoch.InCommonYears
    decide +kernel
  exact .next _ (common _ _) (.next _ (common _ _) .created)

theorem canary_answers_as_stored :
    (Restates unnamedExecution (trackedWorld MemoryStore.empty) ∧
        RecordsOne (Canary.metric 3) (trackedWorld MemoryStore.empty)) ∧
      Restates unnamedExecution (trackedWorld (RelationalStore.onDatabase .empty)) := by
  have fresh : Turn.FreshRun Canary.turns .empty := by decide +kernel
  obtain ⟨⟨inMemory, memoryReadable⟩, inDatabase, databaseReadable⟩ :=
    answers_as_stored fresh (show (trackedWorld MemoryStore.empty).store = _ from rfl)
      trackedWorld_dated.reachable
  refine ⟨⟨?_, ?_⟩, ?_⟩
  · have succeeds : (update unnamedExecution (trackedWorld MemoryStore.empty)).1.isOk = true := by
      decide +kernel
    obtain ⟨x, after, updated⟩ := Action.exists_ok succeeds
    obtain ⟨rfl, held, stored⟩ := inMemory.update _ _ _ updated
    obtain ⟨row, persisted, same⟩ := stored (memoryReadable rfl)
    exact ⟨row, after, updated, same, (held row persisted same).1⟩
  · have succeeds : (record .latching (Canary.metric 3) (.ofNat 1)
        (trackedWorld MemoryStore.empty)).1.isOk = true := by
      decide +kernel
    obtain ⟨x, after, recorded⟩ := Action.exists_ok succeeds
    exact ⟨x, after, recorded, (inMemory.record _ _ _ _ _ recorded).2 (memoryReadable rfl)⟩
  · have succeeds : (update unnamedExecution
        (trackedWorld (RelationalStore.onDatabase .empty))).1.isOk = true := by
      decide +kernel
    obtain ⟨x, after, updated⟩ := Action.exists_ok succeeds
    obtain ⟨rfl, held, stored⟩ := inDatabase.update _ _ _ updated
    obtain ⟨row, persisted, same⟩ :=
      stored (databaseReadable trackedWorld_dated (by decide +kernel))
    have settled : unnamedExecution.readBack Binary64.settled = unnamedExecution := by
      decide +kernel
    exact ⟨row, after, updated, same, settled ▸ (held row persisted same).1⟩

/-- The execution that an update answers is not found by the metric that it names. -/
theorem unnamed_execution_not_persisted :
    ∃ after, update unnamedExecution (trackedWorld MemoryStore.empty) =
        (.ok unnamedExecution, after) ∧
      ¬Persisted unnamedExecution after := by
  refine ⟨(update unnamedExecution (trackedWorld MemoryStore.empty)).2, rfl, fun persisted => ?_⟩
  have missed : Store.findMetricExecution EntityId.nil
      (update unnamedExecution (trackedWorld MemoryStore.empty)).2.store = .ok none := by
    rfl
  cases missed.symm.trans (findByMetric_ok_iff.mp persisted.found)

end RolloutWatch.Tracker

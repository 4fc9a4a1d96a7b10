import RolloutWatch.Proofs.Memory.Updates
import RolloutWatch.Proofs.Relational.Updates
import RolloutWatch.Proofs.Store.Listings

/-!
What the typed updates write in either store, wherever any operations have led it, and what the
services answer after them.
-/

namespace RolloutWatch

/-! ### Answers of the services -/

namespace Groups

variable {σ : Type} [Store σ] {world after : World σ}

/-- An update of a group answers with the group that the store has after the write. -/
theorem update_as_stored {id : EntityId} {u : MetricsGroupUpdate} {g : MetricsGroup}
    (updated : update id u world = (.ok g, after)) :
    Store.updateMetricsGroup id u world.store = .ok (true, after.store) ∧
      Store.findMetricsGroup id after.store = .ok (some g) := by
  rw [update_apply] at updated
  split at updated
  · cases updated
  · split at updated
    · cases updated
    · cases updated
    · rename_i store written
      rw [find_apply] at updated
      obtain ⟨answered, rfl⟩ := Prod.mk.inj updated
      exact ⟨written, Action.required_ok answered⟩

/-- An update of a metric answers with the metric that the store has after the write. -/
theorem updateMetric_as_stored {m row : Metric}
    (updated : updateMetric m world = (.ok row, after)) :
    Store.updateMetric m world.store = .ok (true, after.store) ∧
      Store.findMetric m.id after.store = .ok (some row) := by
  rw [updateMetric_apply] at updated
  split at updated
  · cases updated
  · split at updated
    · cases updated
    · cases updated
    · rename_i store written
      obtain ⟨answered, rfl⟩ := Prod.mk.inj updated
      exact ⟨written, Action.required_ok answered⟩

end Groups

namespace Store

/-- The services answer an update with the row as it is stored after it. -/
structure AnswersUpdates (σ : Type) [Store σ] : Prop where
  group : ∀ id u g (world after : World σ), Groups.update id u world = (.ok g, after) →
    Store.updateMetricsGroup id u world.store = .ok (true, after.store) ∧
      Store.findMetricsGroup id after.store = .ok (some g)
  metric : ∀ m row (world after : World σ), Groups.updateMetric m world = (.ok row, after) →
    Store.updateMetric m world.store = .ok (true, after.store) ∧
      Store.findMetric m.id after.store = .ok (some row)

theorem answersUpdates (σ : Type) [Store σ] : AnswersUpdates σ where
  group _ _ _ _ _ updated := Groups.update_as_stored updated
  metric _ _ _ _ updated := Groups.updateMetric_as_stored updated

/-- Wherever operations have led a store, its typed updates write the fields that they name, of
the row that they address, and every read shows this and no more. The store in memory keeps numbers
as they are, the database as the text of a number reads, which is the same number unless it is not
a number at all. The services, which make no other changes than the operations do by
`Operated.next`, answer with the rows as they are stored. -/
theorem updates_write_only_named :
    (∀ (allowed : StoreOperation → Prop) (s : MemoryStore) (c : Contents),
      MemoryStore.Operated allowed s c →
        WritesOnlyNamed (fun x => x) MemoryStore.Catalogued s) ∧
    (∀ (allowed : StoreOperation → Prop) (s : RelationalStore) (c : Contents),
      RelationalStore.Operated allowed s c →
        WritesOnlyNamed Binary64.settled RelationalStore.Catalogued s) ∧
    (∀ x : Binary64, x.isNaN = false → x.settled = x) ∧
    AnswersUpdates MemoryStore ∧ AnswersUpdates RelationalStore :=
  ⟨fun _ _ _ operated => operated.writesOnlyNamed, fun _ _ _ operated => operated.writesOnlyNamed,
    fun _ number => Binary64.settled_of_not_isNaN number, answersUpdates _, answersUpdates _⟩

end Store

/-! ### Updates of canaries -/

namespace Canary

def renamed : MetricsGroupUpdate :=
  { name := "later canary", circleId := .ofNat 8 }

def rise : Metric :=
  { metric 3 with nickname := "rise", threshold := .ofMagnitude false 1, metricsGroupId := .nil }

def resting : MetricExecution :=
  { (metric 3).execution with lastValue := .zero, status := .active }

end Canary

namespace Store

theorem exists_written {σ : Type} {answer : Except Error (Bool × σ)}
    (found : answer.toOption.map Prod.fst = some true) : ∃ after, answer = .ok (true, after) := by
  obtain ⟨⟨hit, after⟩, given, rfl⟩ := Option.map_eq_some_iff.mp found
  cases answer with
  | error fault => cases given
  | ok result =>
      cases given
      exact ⟨after, rfl⟩

theorem canary_updates :
    (∃ after, Store.updateMetricsGroup (.ofNat 2) Canary.renamed Canary.inDatabase.1 =
        .ok (true, after) ∧
      GroupUpdated (.ofNat 2) Canary.renamed Canary.inDatabase.1 after) ∧
    (∃ after, Store.updateMetric Canary.rise Canary.inDatabase.1 = .ok (true, after) ∧
      MetricUpdated Canary.rise Canary.inDatabase.1 after) ∧
    (∃ after, Store.updateMetricExecution Canary.resting Canary.inMemory.1 = .ok (true, after) ∧
      ∃ owner, ExecutionUpdated Canary.resting owner Canary.inMemory.1 after) ∧
    (∃ after, Store.softDeleteDataSource (.ofNat 11) .epoch Canary.inMemory.1 =
        .ok (true, after) ∧
      SourceDeleted MemoryStore.Catalogued (.ofNat 11) .epoch Canary.inMemory.1 after) ∧
    ∃ g after, Groups.update (.ofNat 2) Canary.renamed
        ((Canary.turn (.updateGroup (.ofNat 2) Canary.renamed) 300).world Canary.inMemory.1) =
          (.ok g, after) ∧
      Store.findMetricsGroup (.ofNat 2) after.store = .ok (some g) := by
  have memory : MemoryStore.Operated (fun _ => True) Canary.inMemory.1 Canary.inMemory.2 :=
    .records Canary.operations (fun _ _ => trivial) .started
  have database : RelationalStore.Operated (fun _ => True) Canary.inDatabase.1
      Canary.inDatabase.2 := .records Canary.operations (fun _ _ => trivial) .started
  obtain ⟨inMemory, inDatabase, settles, answers, -⟩ := updates_write_only_named
  have writes := inMemory _ _ _ memory
  have writesRows := inDatabase _ _ _ database
  refine ⟨?_, ?_, ?_, ?_, ?_⟩
  · obtain ⟨after, written⟩ := exists_written (show (Store.updateMetricsGroup (.ofNat 2)
      Canary.renamed Canary.inDatabase.1).toOption.map Prod.fst = some true by decide +kernel)
    exact ⟨after, written, writesRows.group _ _ _ _ written⟩
  · obtain ⟨after, written⟩ := exists_written (show (Store.updateMetric Canary.rise
      Canary.inDatabase.1).toOption.map Prod.fst = some true by decide +kernel)
    have updated := writesRows.metric _ _ _ written
    rw [settles _ (by decide +kernel)] at updated
    exact ⟨after, written, updated⟩
  · obtain ⟨after, written⟩ := exists_written (show (Store.updateMetricExecution Canary.resting
      Canary.inMemory.1).toOption.map Prod.fst = some true by decide +kernel)
    exact ⟨after, written, writes.execution _ _ _ written⟩
  · obtain ⟨after, written⟩ := exists_written (show (Store.softDeleteDataSource (.ofNat 11)
      .epoch Canary.inMemory.1).toOption.map Prod.fst = some true by decide +kernel)
    exact ⟨after, written, writes.deletion _ _ _ _ written⟩
  · have succeeds : (Groups.update (.ofNat 2) Canary.renamed
        ((Canary.turn (.updateGroup (.ofNat 2) Canary.renamed) 300).world
          Canary.inMemory.1)).1.isOk = true := by
      decide +kernel
    obtain ⟨g, after, updated⟩ := Action.exists_ok succeeds
    exact ⟨g, after, updated, (answers.group _ _ _ _ _ updated).2⟩

end Store

end RolloutWatch

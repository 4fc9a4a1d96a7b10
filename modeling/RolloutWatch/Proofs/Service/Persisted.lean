import RolloutWatch.Proofs.Evaluation.Effect

/-!
What the tracker answers and what the store holds afterwards. A recording starts from the
execution that is stored, and so it answers what is stored when it is done. An update answers the
execution that it has been given, of which the store takes over the value and the status and
nothing else.
-/

namespace RolloutWatch

namespace MetricExecution

def restated (e row : MetricExecution) : MetricExecution :=
  if row.id = e.id then row.withStateOf e else row

/-- The execution as it is read, in a store that gives numbers back in this way. -/
def readBack (settle : Binary64 → Binary64) (e : MetricExecution) : MetricExecution :=
  { e with lastValue := settle e.lastValue }

theorem restated_id (e row : MetricExecution) : (restated e row).id = row.id := by
  unfold restated
  split <;> rfl

theorem restated_metricId (e row : MetricExecution) :
    (restated e row).metricId = row.metricId := by
  unfold restated
  split <;> rfl

theorem restated_createdAt (e row : MetricExecution) :
    (restated e row).createdAt = row.createdAt := by
  unfold restated
  split <;> rfl

theorem withStateOf_eq_iff {e row : MetricExecution} (same : row.id = e.id) :
    row.withStateOf e = e ↔ row.metricId = e.metricId ∧ row.createdAt = e.createdAt := by
  obtain ⟨id, metricId, lastValue, status, createdAt⟩ := e
  unfold withStateOf
  rw [MetricExecution.mk.injEq]
  exact ⟨fun ⟨_, metrics, _, _, times⟩ => ⟨metrics, times⟩,
    fun ⟨metrics, times⟩ => ⟨same, metrics, rfl, rfl, times⟩⟩

end MetricExecution

namespace Tracker

open MetricExecution

variable {σ : Type} [Store σ]

/-- The store holds exactly this execution: it is found by its metric, and it is listed. -/
structure Persisted (e : MetricExecution) (world : World σ) : Prop where
  found : findByMetric e.metricId world = (.ok e, world)
  listed : ∃ all, findAll world = (.ok all, world) ∧ e ∈ all

def Readable (world : World σ) : Prop :=
  ∃ all, findAll world = (.ok all, world)

theorem findByMetric_ok_iff {id : EntityId} {world : World σ} {e : MetricExecution} :
    findByMetric id world = (.ok e, world) ↔
      Store.findMetricExecution id world.store = .ok (some e) := by
  rw [findByMetric_apply]
  cases Store.findMetricExecution id world.store with
  | error fault => exact ⟨nofun, nofun⟩
  | ok answer =>
      cases answer with
      | none => exact ⟨nofun, nofun⟩
      | some row =>
          constructor <;>
            · intro same
              cases same
              rfl

theorem findAll_ok_iff {world : World σ} {all : List MetricExecution} :
    findAll world = (.ok all, world) ↔ Store.listMetricExecutions world.store = .ok all :=
  ⟨fun answered => congrArg Prod.fst answered, fun listed => congrArg (·, world) listed⟩

/-- How a store keeps executions: each under an identifier and a metric of its own, with the state
that has been stored last. -/
structure KeepsState (settle : Binary64 → Binary64) (s : σ) : Prop where
  names : ∀ {id e}, Store.findMetricExecution id s = .ok (some e) → e.metricId = id
  listed_iff : ∀ {all}, Store.listMetricExecutions s = .ok all →
    ∀ e, e ∈ all ↔ Store.findMetricExecution e.metricId s = .ok (some e)
  ids : ∀ {all}, Store.listMetricExecutions s = .ok all →
    ∀ a ∈ all, ∀ b ∈ all, a.id = b.id → a = b
  updated : ∀ {e found after}, Store.updateMetricExecution e s = .ok (found, after) →
    AnswersThrough (restated (e.readBack settle)) s after
  present : ∀ {e after all}, Store.updateMetricExecution e s = .ok (true, after) →
    Store.listMetricExecutions s = .ok all → ∃ row ∈ all, row.id = e.id

section

variable {settle : Binary64 → Binary64} {world after : World σ} {e x row : MetricExecution}

theorem KeepsState.persisted_of_mem (keeps : KeepsState settle world.store)
    {all : List MetricExecution} (listed : Store.listMetricExecutions world.store = .ok all)
    (member : row ∈ all) : Persisted row world where
  found := findByMetric_ok_iff.mpr ((keeps.listed_iff listed row).mp member)
  listed := ⟨all, findAll_ok_iff.mpr listed, member⟩

/-- After a change of executions that keeps their metrics, exactly the changed ones are held. -/
theorem KeepsState.persisted_after_iff (keeps : KeepsState settle world.store)
    {change : MetricExecution → MetricExecution}
    (answers : AnswersThrough change world.store after.store)
    (kept : ∀ e, (change e).metricId = e.metricId) :
    Persisted e after ↔ ∃ row, Persisted row world ∧ change row = e := by
  constructor
  · rintro ⟨-, all, listed, member⟩
    rw [findAll_ok_iff, answers.executions] at listed
    cases before : Store.listMetricExecutions world.store with
    | error fault =>
        rw [before] at listed
        cases listed
    | ok rows =>
        rw [before] at listed
        cases listed
        obtain ⟨row, stored, same⟩ := List.mem_map.mp member
        exact ⟨row, keeps.persisted_of_mem before stored, same⟩
  · rintro ⟨row, ⟨found, all, listed, member⟩, rfl⟩
    rw [findByMetric_ok_iff] at found
    rw [findAll_ok_iff] at listed
    refine ⟨findByMetric_ok_iff.mpr ?_, all.map change, findAll_ok_iff.mpr ?_,
      List.mem_map_of_mem member⟩
    · rw [kept, answers.execution, found]
      rfl
    · rw [answers.executions, listed]
      rfl

theorem KeepsState.eq_of_id (keeps : KeepsState settle world.store) {other : MetricExecution}
    (persisted : Persisted row world) (otherPersisted : Persisted other world)
    (same : row.id = other.id) : row = other := by
  obtain ⟨-, all, listed, member⟩ := persisted
  obtain ⟨-, again, relisted, otherMember⟩ := otherPersisted
  cases listed.symm.trans relisted
  exact keeps.ids (findAll_ok_iff.mp listed) row member other otherMember same

theorem update_written (updated : update e world = (.ok x, after)) :
    Store.updateMetricExecution e world.store = .ok (true, after.store) ∧ x = e := by
  rw [update_apply] at updated
  cases written : Store.updateMetricExecution e world.store with
  | error fault =>
      rw [written] at updated
      cases updated
  | ok result =>
      obtain ⟨found, store⟩ := result
      rw [written] at updated
      cases found with
      | false => cases updated
      | true =>
          cases updated
          exact ⟨rfl, rfl⟩

/-- What an update answers is held exactly if its metric and its time are those of the execution
that has been stored under its identifier, and what is held is that execution in the new state. -/
theorem KeepsState.update_answer (keeps : KeepsState settle world.store)
    (updated : update e world = (.ok x, after)) (persisted : Persisted row world)
    (same : row.id = e.id) :
    Persisted (row.withStateOf (e.readBack settle)) after ∧
      (Persisted (x.readBack settle) after ↔
        row.metricId = e.metricId ∧ row.createdAt = e.createdAt) := by
  obtain ⟨written, rfl⟩ := update_written updated
  have after_iff {held : MetricExecution} :=
    keeps.persisted_after_iff (e := held) (keeps.updated written) (restated_metricId _)
  have restates : restated (x.readBack settle) row = row.withStateOf (x.readBack settle) :=
    if_pos same
  refine ⟨after_iff.mpr ⟨row, persisted, restates⟩, ?_⟩
  have fields := withStateOf_eq_iff (e := x.readBack settle) same
  refine Iff.trans ⟨fun held => ?_, fun equal => ?_⟩ fields
  · obtain ⟨other, otherPersisted, equal⟩ := after_iff.mp held
    have ids := congrArg MetricExecution.id equal
    rw [restated_id] at ids
    rw [← restates, keeps.eq_of_id persisted otherPersisted (same.trans ids.symm), equal]
  · exact after_iff.mpr ⟨row, persisted, restates.trans equal⟩

theorem KeepsState.exists_row (keeps : KeepsState settle world.store)
    (updated : update e world = (.ok x, after)) (readable : Readable world) :
    ∃ row, Persisted row world ∧ row.id = e.id := by
  obtain ⟨all, listed⟩ := readable
  rw [findAll_ok_iff] at listed
  obtain ⟨row, member, same⟩ := keeps.present (update_written updated).1 listed
  exact ⟨row, keeps.persisted_of_mem listed member, same⟩

theorem record_updated {policy : TransitionPolicy} {m : Metric} {value : Binary64}
    (recorded : record policy m value world = (.ok x, after)) :
    ∃ row, Store.findMetricExecution m.id world.store = .ok (some row) ∧
      x = afterReading policy m value row ∧
      update (afterReading policy m value row) world = (.ok x, after) := by
  rw [record_apply] at recorded
  cases found : Store.findMetricExecution m.id world.store with
  | error fault =>
      rw [found] at recorded
      cases recorded
  | ok answer =>
      rw [found] at recorded
      cases answer with
      | none => cases recorded
      | some row => exact ⟨row, rfl, (update_written recorded).2, recorded⟩

/-- What a recording answers is found by its metric, and is listed if executions can be. -/
theorem KeepsState.record_answer (keeps : KeepsState settle world.store)
    {policy : TransitionPolicy} {m : Metric} {value : Binary64}
    (recorded : record policy m value world = (.ok x, after)) :
    findByMetric x.metricId after = (.ok (x.readBack settle), after) ∧
      (Readable world → Persisted (x.readBack settle) after) := by
  obtain ⟨row, found, rfl, updated⟩ := record_updated recorded
  obtain ⟨written, -⟩ := update_written updated
  have answers := keeps.updated written
  have names := keeps.names found
  have restates : restated ((afterReading policy m value row).readBack settle) row =
      (afterReading policy m value row).readBack settle := if_pos rfl
  constructor
  · rw [findByMetric_ok_iff, answers.execution]
    change (Store.findMetricExecution row.metricId world.store).map _ = _
    rw [names, found]
    exact congrArg (fun e => Except.ok (some e)) restates
  · rintro ⟨all, listed⟩
    rw [findAll_ok_iff] at listed
    have member := (keeps.listed_iff listed row).mpr (names ▸ found)
    exact (keeps.persisted_after_iff answers (restated_metricId _)).mpr
      ⟨row, keeps.persisted_of_mem listed member, restates⟩

end

/-- What the answers of the tracker have to do with what is held afterwards, in a store that gives
numbers back in this way. An update answers its argument, whatever it stores. -/
structure AnswersAsStored (settle : Binary64 → Binary64) (world : World σ) : Prop where
  update : ∀ e x after, Tracker.update e world = (.ok x, after) →
    x = e ∧
      (∀ row, Persisted row world → row.id = e.id →
        Persisted (row.withStateOf (e.readBack settle)) after ∧
          (Persisted (x.readBack settle) after ↔
            row.metricId = e.metricId ∧ row.createdAt = e.createdAt)) ∧
      (Readable world → ∃ row, Persisted row world ∧ row.id = e.id)
  record : ∀ policy m value x after, Tracker.record policy m value world = (.ok x, after) →
    findByMetric x.metricId after = (.ok (x.readBack settle), after) ∧
      (Readable world → Persisted (x.readBack settle) after)

theorem KeepsState.answersAsStored {settle : Binary64 → Binary64} {world : World σ}
    (keeps : KeepsState settle world.store) : AnswersAsStored settle world where
  update _ _ _ updated :=
    ⟨(update_written updated).2, fun _ persisted same => keeps.update_answer updated persisted same,
      keeps.exists_row updated⟩
  record _ _ _ _ _ recorded := keeps.record_answer recorded

end Tracker

end RolloutWatch

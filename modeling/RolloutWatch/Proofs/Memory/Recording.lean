import RolloutWatch.Proofs.Evaluation.Failure
import RolloutWatch.Proofs.Memory.Lifetime

/-!
Recordings in the store in memory. A reading is recorded if the store is open and an execution
names its metric. With identifiers of their own for executions, no other metric's execution
changes, so that a sequence of recordings acts on the execution of a metric as the readings of
that metric do, one after the other.
-/

namespace RolloutWatch

def Recording.applyTo (policy : TransitionPolicy) (e : MetricExecution) (r : Recording) :
    MetricExecution :=
  Tracker.afterReading policy r.metric r.value e

def Recording.ofMetric (id : EntityId) (rs : List Recording) : List Recording :=
  rs.filter fun r => r.metric.id = id

namespace MemoryStore

def writeExecution (e : MetricExecution) (s : MemoryStore) : MemoryStore :=
  { s with
    executions :=
      (Store.updateFirst (fun row => row.id = e.id) (fun row => row.withStateOf e)
        s.executions).2 }

instance : LawfulStore MemoryStore where
  missed := by
    intro e s after answered
    obtain ⟨_, result⟩ := whenOpen_ok answered
    obtain ⟨found, written⟩ := Prod.mk.inj (Except.ok.inj result)
    rw [← written, Store.updateFirst_of_not_found _ _ _ found]

theorem record_of_closed {policy : TransitionPolicy} {m : Metric} {value : Binary64}
    {world : World MemoryStore} (closed : world.store.closed = true) :
    Tracker.record policy m value world = (.error (.persistence .closed), world) := by
  rw [Tracker.record_apply]
  have refused : Store.findMetricExecution m.id world.store =
      .error (.persistence .closed) := by
    change world.store.whenOpen _ = _
    unfold whenOpen
    rw [closed]
    rfl
  rw [refused]

private theorem findMetricExecution_of_open {s : MemoryStore} (opened : s.closed = false)
    (id : EntityId) : Store.findMetricExecution id s = .ok (s.executionFor id) :=
  whenOpen_of_open _ opened

theorem record_of_missing {policy : TransitionPolicy} {m : Metric} {value : Binary64}
    {world : World MemoryStore} (opened : world.store.closed = false)
    (missing : world.store.executionFor m.id = none) :
    Tracker.record policy m value world =
      (.error (.notFound .metricExecution m.id), world) := by
  rw [Tracker.record_apply, findMetricExecution_of_open opened, missing]

theorem record_of_found (policy : TransitionPolicy) {m : Metric} (value : Binary64)
    {world : World MemoryStore} {e : MetricExecution} (opened : world.store.closed = false)
    (found : world.store.executionFor m.id = some e) :
    Tracker.record policy m value world =
      (.ok (Tracker.afterReading policy m value e),
        { world with
          store := writeExecution (Tracker.afterReading policy m value e) world.store }) := by
  have stored := (executionFor_names found).1
  have present : (Store.updateFirst
      (fun row => row.id = (Tracker.afterReading policy m value e).id)
      (fun row => row.withStateOf (Tracker.afterReading policy m value e))
      world.store.executions).1 = true := by
    rw [Store.updateFirst_found]
    exact List.any_eq_true.mpr ⟨e, stored, decide_eq_true rfl⟩
  have written : Store.updateMetricExecution (Tracker.afterReading policy m value e)
      world.store =
        .ok (true, writeExecution (Tracker.afterReading policy m value e) world.store) := by
    refine (whenOpen_of_open _ opened).trans ?_
    rw [present]
    rfl
  rw [Tracker.record_apply, findMetricExecution_of_open opened, found]
  simp only
  rw [Tracker.update_apply, written]
  rfl

theorem executionFor_writeExecution {s : MemoryStore}
    (distinct : (s.executions.map MetricExecution.id).Nodup) (e : MetricExecution)
    (id : EntityId) :
    (writeExecution e s).executionFor id =
      (s.executionFor id).map fun row => if row.id = e.id then row.withStateOf e else row := by
  have rows : (writeExecution e s).executions =
      s.executions.map fun row => if row.id = e.id then row.withStateOf e else row :=
    Store.updateFirst_of_nodup MetricExecution.id e.id _ s.executions distinct
  unfold executionFor
  rw [rows, List.find?_map]
  congr 2
  funext row
  simp only [Function.comp_apply]
  split <;> rfl

/-! ### Metrics that can be recorded -/

def Ready (id : EntityId) (s : MemoryStore) : Prop :=
  s.closed = false ∧ ∃ e, s.executionFor id = some e

theorem record_of_not_ready (policy : TransitionPolicy) {m : Metric} (value : Binary64)
    {world : World MemoryStore} (notReady : ¬Ready m.id world.store) :
    ∃ fault, Tracker.record policy m value world = (.error fault, world) := by
  cases closed : world.store.closed with
  | true => exact ⟨_, record_of_closed closed⟩
  | false =>
      cases found : world.store.executionFor m.id with
      | none => exact ⟨_, record_of_missing closed found⟩
      | some e => exact absurd ⟨closed, e, found⟩ notReady

theorem ready_iff {id : EntityId} {s : MemoryStore} :
    Ready id s ↔ s.closed = false ∧ id ∈ s.executions.map MetricExecution.metricId := by
  refine and_congr_right fun _ => ?_
  constructor
  · rintro ⟨e, found⟩
    obtain ⟨stored, names⟩ := executionFor_names found
    exact List.mem_map.mpr ⟨e, stored, names⟩
  · exact Store.exists_find_of_mem_keys MetricExecution.metricId id s.executions

theorem ready_writeExecution {id : EntityId} (e : MetricExecution) (s : MemoryStore) :
    Ready id (writeExecution e s) ↔ Ready id s := by
  have names : (writeExecution e s).executions.map MetricExecution.metricId =
      s.executions.map MetricExecution.metricId := by
    apply Store.map_updateFirst
    intro row
    rfl
  rw [ready_iff, ready_iff, names]
  exact Iff.rfl

theorem recordable : Recordable Ready := by
  intro policy m value world ready
  obtain ⟨opened, e, found⟩ := ready
  refine ⟨_, _, record_of_found policy value opened found, ?_⟩
  intro id _ others
  exact (ready_writeExecution _ world.store).mpr others

/-- Readings can all be recorded exactly if the store is open and has executions for all of
their metrics. What is recorded before does not matter. -/
theorem recorded_eq_iff (policy : TransitionPolicy) (rs : List Recording)
    (world : World MemoryStore) :
    Evaluation.recorded policy rs world = rs ↔ ∀ r ∈ rs, Ready r.metric.id world.store := by
  induction rs generalizing world with
  | nil => exact iff_of_true rfl fun r member => absurd member List.not_mem_nil
  | cons r rest ih =>
      rw [Evaluation.recorded, List.forall_mem_cons]
      by_cases ready : Ready r.metric.id world.store
      · obtain ⟨opened, e, found⟩ := ready
        rw [record_of_found policy r.value opened found]
        simp only [List.cons.injEq, true_and, ih, ready_writeExecution]
        exact (and_iff_right ⟨opened, e, found⟩).symm
      · obtain ⟨fault, refused⟩ := record_of_not_ready policy r.value ready
        rw [refused]
        exact iff_of_false (fun equal => by cases equal) fun both => ready both.1

/-! ### Executions after recordings -/

/-- A recording acts on the execution of its own metric. -/
theorem executionFor_record {policy : TransitionPolicy} {r : Recording}
    {world after : World MemoryStore} {e : MetricExecution} (owned : Owned world.store)
    (recorded : Tracker.record policy r.metric r.value world = (.ok e, after))
    (id : EntityId) :
    after.store.executionFor id =
      (world.store.executionFor id).map fun row =>
        (Recording.ofMetric id [r]).foldl (Recording.applyTo policy) row := by
  by_cases ready : Ready r.metric.id world.store
  · obtain ⟨opened, old, found⟩ := ready
    rw [record_of_found _ _ opened found] at recorded
    cases recorded
    simp only
    rw [executionFor_writeExecution owned.executionIds]
    cases row : world.store.executionFor id with
    | none => rfl
    | some other =>
        obtain ⟨oldStored, oldNames⟩ := executionFor_names found
        obtain ⟨otherStored, otherNames⟩ := executionFor_names row
        by_cases same : r.metric.id = id
        · have equal : other = old := by
            rw [same] at found
            exact Option.some.inj (row.symm.trans found)
          subst equal
          simp only [Recording.ofMetric, same, decide_true, List.filter_cons_of_pos,
            List.filter_nil, List.foldl_cons, List.foldl_nil, Option.map_some]
          exact congrArg some (if_pos rfl)
        · -- The row is written by its own identifier, which no other execution has.
          have different : other.id ≠ old.id := by
            intro equal
            apply same
            have equalRows :=
              List.inj_on_of_nodup_map owned.executionIds otherStored oldStored equal
            rw [← oldNames, ← otherNames, equalRows]
          simp only [Recording.ofMetric, same, decide_false, List.filter_cons_of_neg,
            Bool.false_eq_true, not_false_eq_true, List.filter_nil, List.foldl_nil,
            Option.map_some]
          exact congrArg some (if_neg different)
  · obtain ⟨fault, refused⟩ := record_of_not_ready policy r.value ready
    rw [refused] at recorded
    cases recorded

/-- What could be recorded of a sequence of readings acts on the execution of every metric. -/
theorem executionFor_recordAll (policy : TransitionPolicy) (rs : List Recording)
    (world : World MemoryStore) (owned : Owned world.store) (id : EntityId) :
    (Evaluation.recordAll policy rs world).2.store.executionFor id =
      (world.store.executionFor id).map fun row =>
        (Recording.ofMetric id (Evaluation.recorded policy rs world)).foldl
          (Recording.applyTo policy) row := by
  induction rs generalizing world with
  | nil => exact Option.map_id'.symm
  | cons r rest ih =>
      rw [Evaluation.recordAll_cons, Evaluation.recorded]
      rcases recorded : Tracker.record policy r.metric r.value world with ⟨answer, after⟩
      cases answer with
      | error fault =>
          rw [Tracker.record_refused recorded]
          exact Option.map_id'.symm
      | ok e =>
          have writes := Tracker.record_writes policy r.metric r.value world
          rw [recorded] at writes
          have others := ih after (owned.of_links (executionWrites_links writes))
          have first := executionFor_record owned recorded id
          have split : Recording.ofMetric id (r :: Evaluation.recorded policy rest after) =
              Recording.ofMetric id [r] ++
                Recording.ofMetric id (Evaluation.recorded policy rest after) :=
            List.filter_append [r] (Evaluation.recorded policy rest after)
          simp only [split, List.foldl_append]
          rw [first, Option.map_map] at others
          rcases recordedRest : Evaluation.recordAll policy rest after with ⟨answers, final⟩
          rw [recordedRest] at others
          cases answers <;> exact others

/-! ### Groups that can be recorded -/

theorem hydrate_id (s : MemoryStore) (m : Metric) : (s.hydrate m).id = m.id := by
  unfold hydrate
  split <;> rfl

theorem Linked.loads {s : MemoryStore} (linked : Linked s) {groupId : EntityId}
    {g : MetricsGroup} (loaded : Store.findMetricsGroup groupId s = .ok (some g)) :
    (g.metrics.map Metric.id).Nodup ∧ ∀ m ∈ g.metrics, Ready m.id s := by
  obtain ⟨opened, result⟩ := whenOpen_ok loaded
  obtain ⟨row, _, rfl⟩ := Option.map_eq_some_iff.mp (Except.ok.inj result)
  have ids : (s.hydrateGroup row).metrics.map Metric.id =
      (s.metrics.filter fun m => m.metricsGroupId = row.id).map Metric.id := by
    unfold hydrateGroup
    rw [List.map_map]
    exact List.map_congr_left fun m _ => hydrate_id s m
  constructor
  · rw [ids]
    exact linked.metricIds.sublist (List.filter_sublist.map _)
  · intro m member
    have stored : m.id ∈ s.metricIds := by
      have present := List.mem_map_of_mem (f := Metric.id) member
      rw [ids] at present
      exact (List.filter_sublist.map _).subset present
    exact ⟨opened, linked.exists_execution stored⟩

end MemoryStore

end RolloutWatch

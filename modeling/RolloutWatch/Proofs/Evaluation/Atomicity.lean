import RolloutWatch.Proofs.Memory.Recording
import RolloutWatch.Proofs.Relational.Recording

/-!
What a tracking phase leaves behind when a reading is refused. The readings before the refused
one have been written by then, the ones after it are not tried, and the failure policy is not
asked. So a phase is all or nothing only as long as nothing is refused, or where the readings
before the refused one come to nothing.
-/

namespace RolloutWatch

namespace Keyed

variable {α : Type}

theorem mem_put (key : String) (entry : α) (table : List (String × α)) :
    (key, entry) ∈ put key entry table := by
  induction table with
  | nil => exact List.mem_singleton_self _
  | cons first rest ih =>
      unfold put
      split
      · exact List.mem_cons_self
      · split
        · exact List.mem_cons_self
        · exact List.mem_cons_of_mem _ ih

theorem exists_mem_put {key other : String} {present : α} {table : List (String × α)}
    (member : (key, present) ∈ table) (entry : α) :
    ∃ kept, (key, kept) ∈ put other entry table := by
  induction table with
  | nil => cases member
  | cons first rest ih =>
      obtain ⟨k, e⟩ := first
      unfold put
      by_cases same : other = k
      · rw [if_pos same]
        rcases List.mem_cons.mp member with here | later
        · cases here
          rw [← same]
          exact ⟨entry, List.mem_cons_self⟩
        · exact ⟨present, List.mem_cons_of_mem _ later⟩
      · rw [if_neg same]
        split
        · exact ⟨present, List.mem_cons_of_mem _ member⟩
        · rcases List.mem_cons.mp member with here | later
          · cases here
            exact ⟨present, List.mem_cons_self⟩
          · obtain ⟨kept, stays⟩ := ih later
            exact ⟨kept, List.mem_cons_of_mem _ stays⟩

end Keyed

variable {σ : Type} [Store σ]

namespace Evaluation

/-- Tries every reading in turn, whatever came of the ones before it. -/
def attempts (policy : TransitionPolicy) :
    List Recording → World σ → List (Except Error MetricExecution) × World σ
  | [], world => ([], world)
  | r :: rest, world =>
      let (answer, after) := Tracker.record policy r.metric r.value world
      let (answers, final) := attempts policy rest after
      (answer :: answers, final)

/-- The promise of a tracking phase. If it fails, the store is as it was before. With best
effort a refused reading is a failure in the report, and every other reading is kept and
reported. -/
structure AllOrNothing (failures : FailurePolicy) (policy : TransitionPolicy)
    (outcomes : List Outcome) (groupId : EntityId) (world : World σ) : Prop where
  untouched : ∀ fault after,
    track policy outcomes (.empty groupId) world = (.error fault, after) →
      after.store = world.store
  bestEffort : failures = .bestEffort →
    ∃ report, track policy outcomes (.empty groupId) world =
        (.ok report, (attempts policy (outcomes.filterMap Outcome.recording?) world).2) ∧
      ∀ attempt ∈ (outcomes.filterMap Outcome.recording?).zip
          (attempts policy (outcomes.filterMap Outcome.recording?) world).1,
        match attempt.2 with
        | .error _ => ∃ fault, (attempt.1.metric.resultKey, fault) ∈ report.failures
        | .ok execution =>
            execution ∈ report.executions ∧
              ∃ result, (attempt.1.metric.resultKey, result) ∈ report.results

theorem recordAll_of_recorded {policy : TransitionPolicy} {rs : List Recording}
    {world : World σ} (all : recorded policy rs world = rs) :
    ∃ executions after, recordAll policy rs world = (.ok executions, after) ∧
      attempts policy rs world = (executions.map .ok, after) := by
  induction rs generalizing world with
  | nil => exact ⟨[], world, rfl, rfl⟩
  | cons r rest ih =>
      unfold recorded at all
      rcases first : Tracker.record policy r.metric r.value world with ⟨answer, between⟩
      rw [first] at all
      cases answer with
      | error fault => cases all
      | ok execution =>
          obtain ⟨executions, after, others, attempted⟩ := ih (List.cons.inj all).2
          refine ⟨execution :: executions, after, ?_, ?_⟩
          · rw [recordAll_cons, first]
            simp only [others]
          · unfold attempts
            simp only [first, attempted, List.map_cons]

theorem recordAll_of_refused [LawfulStore σ] {policy : TransitionPolicy} {rs : List Recording}
    {world : World σ} (refused : recorded policy rs world ≠ rs) :
    ∃ fault after, recordAll policy rs world = (.error fault, after) ∧
      after.store = (recordAll policy (recorded policy rs world) world).2.store := by
  induction rs generalizing world with
  | nil => exact absurd rfl refused
  | cons r rest ih =>
      unfold recorded at refused ⊢
      rcases first : Tracker.record policy r.metric r.value world with ⟨answer, between⟩
      rw [first] at refused
      rw [recordAll_cons, first]
      cases answer with
      | error fault => exact ⟨fault, between, rfl, Tracker.record_refused first⟩
      | ok execution =>
          obtain ⟨fault, after, others, store⟩ :=
            ih fun all => refused (congrArg (r :: ·) all)
          refine ⟨fault, after, ?_, ?_⟩
          · simp only [others]
          · simp only [recordAll_cons, first]
            rw [store]
            rcases recordAll policy (recorded policy rest between) between with ⟨answers, final⟩
            cases answers <;> rfl

theorem exists_result_mention {report : GroupEvaluation} {key : String} {result : Json.Value}
    (member : (key, result) ∈ report.results) (outcome : Outcome) :
    ∃ kept, (key, kept) ∈ (mention report outcome).results := by
  unfold mention
  cases outcome.answer with
  | error fault => exact ⟨result, member⟩
  | ok other => exact Keyed.exists_mem_put member other

theorem exists_result_foldl {report : GroupEvaluation} {key : String} {result : Json.Value}
    (member : (key, result) ∈ report.results) (outcomes : List Outcome) :
    ∃ kept, (key, kept) ∈ (outcomes.foldl mention report).results := by
  induction outcomes generalizing report result with
  | nil => exact ⟨result, member⟩
  | cons outcome rest ih =>
      obtain ⟨kept, stays⟩ := exists_result_mention member outcome
      exact ih stays

theorem exists_result_of_recording {outcomes : List Outcome} {report : GroupEvaluation}
    {r : Recording} (reading : r ∈ outcomes.filterMap Outcome.recording?) :
    ∃ result, (r.metric.resultKey, result) ∈ (outcomes.foldl mention report).results := by
  induction outcomes generalizing report with
  | nil => cases reading
  | cons outcome rest ih =>
      obtain ⟨source, member, gives⟩ := List.mem_filterMap.mp reading
      rcases List.mem_cons.mp member with here | later
      · subst here
        unfold Outcome.recording? at gives
        cases answered : source.answer with
        | error fault =>
            rw [answered] at gives
            cases gives
        | ok result =>
            rw [answered] at gives
            obtain ⟨value, _, same⟩ := Option.map_eq_some_iff.mp gives
            have mentioned : (r.metric.resultKey, result) ∈ (mention report source).results := by
              unfold mention
              rw [answered, ← same]
              exact Keyed.mem_put _ result report.results
            exact exists_result_foldl mentioned rest
      · exact ih (List.mem_filterMap.mpr ⟨source, later, gives⟩)

def canaryOutcomes : List Outcome :=
  [{ index := 0, metric := Canary.metric 100, answer := .ok (.number (.integer 1)) },
    { index := 1, metric := Canary.metric 3, answer := .ok (.number (.integer 1)) }]

def trackingWorld (s : MemoryStore) : World MemoryStore :=
  (Canary.turn .listExecutions 0).world s

def strayStore : MemoryStore :=
  { MemoryStore.empty with
    groups := [{ Canary.group with metrics := [] }]
    metrics := [Canary.metric 100, Canary.metric 3]
    executions :=
      [{ id := .ofNat 5
         metricId := .ofNat 100
         lastValue := .zero
         status := .active
         createdAt := .epoch },
        { id := .ofNat 6
          metricId := .ofNat 9
          lastValue := .zero
          status := .active
          createdAt := .epoch }] }

theorem stray_execution_half_recorded :
    ¬AllOrNothing .failFast .latching canaryOutcomes Canary.group.id
      (trackingWorld strayStore) := by
  intro promise
  have fails : (track .latching canaryOutcomes (.empty Canary.group.id)
      (trackingWorld strayStore)).1.isOk = false := by decide +kernel
  have written : (track .latching canaryOutcomes (.empty Canary.group.id)
      (trackingWorld strayStore)).2.store ≠ strayStore := by decide +kernel
  obtain ⟨fault, after, tracked⟩ := Action.exists_fault fails
  rw [tracked] at written
  exact written (promise.untouched fault after tracked)

/-- A tracking phase keeps its promise exactly if no reading is refused, or if it fails fast
and the readings before the refused one leave the store as it was. -/
theorem allOrNothing_iff [LawfulStore σ] (failures : FailurePolicy) (policy : TransitionPolicy)
    (outcomes : List Outcome) (groupId : EntityId) (world : World σ) :
    AllOrNothing failures policy outcomes groupId world ↔
      recorded policy (outcomes.filterMap Outcome.recording?) world =
          outcomes.filterMap Outcome.recording? ∨
        failures = .failFast ∧
          (recordAll policy (recorded policy (outcomes.filterMap Outcome.recording?) world)
            world).2.store = world.store := by
  by_cases all : recorded policy (outcomes.filterMap Outcome.recording?) world =
      outcomes.filterMap Outcome.recording?
  · obtain ⟨executions, after, done, attempted⟩ := recordAll_of_recorded all
    have tracked := track_apply policy outcomes (.empty groupId) world
    rw [done] at tracked
    refine iff_of_true { untouched := ?_, bestEffort := ?_ } (.inl all)
    · intro fault left failed
      rw [failed] at tracked
      cases tracked
    · intro _
      refine ⟨_, tracked.trans (by rw [attempted]), ?_⟩
      rw [attempted]
      rintro ⟨r, answer⟩ member
      obtain ⟨reading, answers⟩ := List.of_mem_zip member
      obtain ⟨execution, kept, rfl⟩ := List.mem_map.mp answers
      exact ⟨kept, exists_result_of_recording reading⟩
  · -- The phase fails here, whatever the failure policy is.
    obtain ⟨fault, after, refused, store⟩ := recordAll_of_refused all
    have tracked := track_apply policy outcomes (.empty groupId) world
    rw [refused] at tracked
    constructor
    · intro promise
      refine .inr ⟨?_, ?_⟩
      · cases failures with
        | failFast => rfl
        | bestEffort =>
            obtain ⟨report, answered, _⟩ := promise.bestEffort rfl
            rw [answered] at tracked
            cases tracked
      · rw [← store]
        exact promise.untouched fault after tracked
    · rintro (impossible | ⟨rfl, same⟩)
      · exact absurd impossible all
      · refine { untouched := ?_, bestEffort := fun impossible => by cases impossible }
        intro other left failed
        rw [failed] at tracked
        obtain ⟨_, rfl⟩ := Prod.mk.inj tracked
        rw [store, same]

theorem canary_allOrNothing_iff :
    AllOrNothing .bestEffort .latching canaryOutcomes Canary.group.id
        (trackingWorld (Turn.run Canary.turns MemoryStore.empty)) ∧
      ¬AllOrNothing .failFast .latching canaryOutcomes Canary.group.id
        (trackingWorld (Turn.run (Canary.turns ++ [Canary.turn (.removeMetric (.ofNat 3)) 300])
          MemoryStore.empty)) := by
  constructor
  · -- Both metrics have an execution, so that no reading is refused.
    rw [allOrNothing_iff, MemoryStore.recorded_eq_iff]
    simp only [MemoryStore.ready_iff]
    exact .inl (by decide +kernel)
  · rw [allOrNothing_iff]
    decide +kernel

end Evaluation

end RolloutWatch

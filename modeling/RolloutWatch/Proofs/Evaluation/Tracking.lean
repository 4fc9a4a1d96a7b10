import RolloutWatch.Engine.Evaluation
import RolloutWatch.Proofs.Service.Equations
import Mathlib.Logic.Relation

/-!
The tracking phase as a sequence of recordings. What it reports of results and failures does
not depend on the store; what it does to the store is to record, one after the other, the
readings of the outcomes, up to the first that cannot be recorded.
-/

namespace RolloutWatch

/-- A store that an update of an execution leaves as it is unless it finds the execution. -/
class LawfulStore (σ : Type) [Store σ] : Prop where
  missed : ∀ {e : MetricExecution} {s after : σ},
    Store.updateMetricExecution e s = .ok (false, after) → after = s

variable {σ : Type} [Store σ]

structure Recording where
  metric : Metric
  value : Binary64
  deriving DecidableEq

namespace Recording

def isMet (r : Recording) : Bool :=
  r.metric.isMet r.value

end Recording

namespace Outcome

def recording? (outcome : Outcome) : Option Recording :=
  match outcome.answer with
  | .error _ => none
  | .ok result =>
      (Reading.ofResult? result).map fun value => { metric := outcome.metric, value }

def hasReading (outcome : Outcome) : Bool :=
  outcome.recording?.isSome

theorem recording_eq_some {outcome : Outcome} {r : Recording} :
    outcome.recording? = some r ↔
      ∃ result, outcome.answer = .ok result ∧ Reading.ofResult? result = some r.value ∧
        r.metric = outcome.metric := by
  unfold recording?
  cases outcome.answer with
  | error e =>
      refine iff_of_false (fun given => by cases given) ?_
      rintro ⟨result, given, -, -⟩
      cases given
  | ok result =>
      refine Option.map_eq_some_iff.trans ⟨?_, ?_⟩
      · rintro ⟨value, reading, rfl⟩
        exact ⟨result, rfl, reading, rfl⟩
      · rintro ⟨other, given, reading, metric⟩
        cases given
        exact ⟨r.value, reading, by rw [← metric]⟩

theorem recording_metric {outcome : Outcome} {r : Recording}
    (reading : outcome.recording? = some r) : r.metric = outcome.metric := by
  obtain ⟨_, -, -, metric⟩ := recording_eq_some.mp reading
  exact metric

/-- What is not finite is no reading. -/
theorem recording_finite {outcome : Outcome} {r : Recording}
    (reading : outcome.recording? = some r) : r.value.isFinite = true := by
  obtain ⟨result, -, given, -⟩ := recording_eq_some.mp reading
  exact (Option.filter_eq_some_iff.mp given).2

end Outcome

def ExecutionWrites : σ → σ → Prop :=
  Relation.ReflTransGen fun before after =>
    ∃ e found, Store.updateMetricExecution e before = .ok (found, after)

namespace Tracker

theorem update_writes (e : MetricExecution) (world : World σ) :
    ExecutionWrites world.store (Tracker.update e world).2.store := by
  rw [update_apply]
  cases updated : Store.updateMetricExecution e world.store with
  | error fault => exact Relation.ReflTransGen.refl
  | ok result => exact Relation.ReflTransGen.single ⟨e, result.1, updated⟩

theorem record_writes (policy : TransitionPolicy) (m : Metric) (value : Binary64)
    (world : World σ) :
    ExecutionWrites world.store (Tracker.record policy m value world).2.store := by
  rw [record_apply]
  cases Store.findMetricExecution m.id world.store with
  | error e => exact Relation.ReflTransGen.refl
  | ok answer =>
      cases answer with
      | none => exact Relation.ReflTransGen.refl
      | some e => exact update_writes _ world

theorem record_refused [LawfulStore σ] {policy : TransitionPolicy} {m : Metric}
    {value : Binary64} {world after : World σ} {fault : Error}
    (refused : Tracker.record policy m value world = (.error fault, after)) :
    after.store = world.store := by
  rw [record_apply] at refused
  cases found : Store.findMetricExecution m.id world.store with
  | error e =>
      rw [found] at refused
      cases refused
      rfl
  | ok answer =>
      rw [found] at refused
      cases answer with
      | none =>
          cases refused
          rfl
      | some e =>
          simp only [update_apply] at refused
          cases updated : Store.updateMetricExecution (afterReading policy m value e)
              world.store with
          | error e =>
              rw [updated] at refused
              cases refused
              rfl
          | ok result =>
              obtain ⟨present, written⟩ := result
              rw [updated] at refused
              cases present with
              | true => cases refused
              | false =>
                  cases refused
                  exact LawfulStore.missed updated

end Tracker

namespace Evaluation

/-- Records readings one after the other, up to the first that cannot be recorded. -/
def recordAll (policy : TransitionPolicy) :
    List Recording → Action σ (List MetricExecution)
  | [] => pure []
  | r :: rest => do
      let execution ← Tracker.record policy r.metric r.value
      let executions ← recordAll policy rest
      pure (execution :: executions)

/-- The readings that are recorded before the first that cannot be. -/
def recorded (policy : TransitionPolicy) : List Recording → World σ → List Recording
  | [], _ => []
  | r :: rest, world =>
      match Tracker.record policy r.metric r.value world with
      | (.ok _, after) => r :: recorded policy rest after
      | (.error _, _) => []

def mention (report : GroupEvaluation) (outcome : Outcome) : GroupEvaluation :=
  let key := outcome.metric.resultKey
  match outcome.answer with
  | .error e => { report with failures := Keyed.put key e report.failures }
  | .ok result => { report with results := Keyed.put key result report.results }

theorem recordAll_cons (policy : TransitionPolicy) (r : Recording) (rest : List Recording)
    (world : World σ) :
    recordAll policy (r :: rest) world =
      match Tracker.record policy r.metric r.value world with
      | (.error e, after) => (.error e, after)
      | (.ok execution, after) =>
          match recordAll policy rest after with
          | (.error e, final) => (.error e, final)
          | (.ok executions, final) => (.ok (execution :: executions), final) := by
  rw [recordAll, Action.bind_apply]
  rcases Tracker.record policy r.metric r.value world with ⟨answer, after⟩
  cases answer with
  | error e => rfl
  | ok execution =>
      simp only
      rw [Action.bind_apply]
      rcases recordAll policy rest after with ⟨answers, final⟩
      cases answers <;> rfl

theorem mention_executions (report : GroupEvaluation) (outcome : Outcome) :
    (mention report outcome).executions = report.executions := by
  unfold mention
  cases outcome.answer <;> rfl

theorem mention_with_executions (report : GroupEvaluation)
    (executions : List MetricExecution) (outcome : Outcome) :
    mention { report with executions } outcome =
      { mention report outcome with executions } := by
  unfold mention
  cases outcome.answer <;> rfl

theorem foldl_mention_with_executions (report : GroupEvaluation)
    (executions : List MetricExecution) (outcomes : List Outcome) :
    outcomes.foldl mention { report with executions } =
      { outcomes.foldl mention report with executions } := by
  induction outcomes generalizing report with
  | nil => rfl
  | cons outcome rest ih =>
      rw [List.foldl_cons, mention_with_executions, List.foldl_cons]
      exact ih (mention report outcome)

theorem trackOutcome_apply (policy : TransitionPolicy) (report : GroupEvaluation)
    (outcome : Outcome) (world : World σ) :
    trackOutcome policy report outcome world =
      match outcome.recording? with
      | none => (.ok (mention report outcome), world)
      | some r =>
          match Tracker.record policy r.metric r.value world with
          | (.error e, after) => (.error e, after)
          | (.ok execution, after) =>
              (.ok
                { mention report outcome with
                  executions := report.executions ++ [execution] }, after) := by
  unfold trackOutcome Outcome.recording? mention
  cases outcome.answer with
  | error e => rfl
  | ok result =>
      simp only
      cases Reading.ofResult? result with
      | none => rfl
      | some value =>
          simp only [Option.map_some]
          rw [Action.bind_apply]
          rcases Tracker.record policy outcome.metric value world with ⟨answer, after⟩
          cases answer <;> rfl

/-- The tracking phase mentions every outcome and records the readings in their order. -/
theorem track_apply (policy : TransitionPolicy) (outcomes : List Outcome)
    (report : GroupEvaluation) (world : World σ) :
    track policy outcomes report world =
      match recordAll policy (outcomes.filterMap Outcome.recording?) world with
      | (.error e, after) => (.error e, after)
      | (.ok executions, after) =>
          (.ok
            { outcomes.foldl mention report with
              executions := report.executions ++ executions }, after) := by
  induction outcomes generalizing report world with
  | nil =>
      simp only [track, List.filterMap_nil, recordAll, Action.pure_apply, List.foldl_nil,
        List.append_nil]
  | cons outcome rest ih =>
      rw [track, Action.bind_apply, trackOutcome_apply]
      cases reading : outcome.recording? with
      | none =>
          rw [List.filterMap_cons_none reading, List.foldl_cons,
            ← mention_executions report outcome]
          exact ih (mention report outcome) world
      | some r =>
          rw [List.filterMap_cons_some reading, recordAll_cons]
          simp only
          rcases Tracker.record policy r.metric r.value world with ⟨answer, after⟩
          cases answer with
          | error e => rfl
          | ok execution =>
              simp only
              rw [ih, foldl_mention_with_executions]
              rcases recordAll policy (rest.filterMap Outcome.recording?) after with
                ⟨answers, final⟩
              cases answers with
              | error e => rfl
              | ok executions =>
                  simp only [List.foldl_cons, List.append_assoc, List.singleton_append]

theorem recordAll_writes (policy : TransitionPolicy) (rs : List Recording)
    (world : World σ) :
    ExecutionWrites world.store (recordAll policy rs world).2.store := by
  induction rs generalizing world with
  | nil => exact Relation.ReflTransGen.refl
  | cons r rest ih =>
      have first := Tracker.record_writes policy r.metric r.value world
      rw [recordAll_cons]
      rcases recordedFirst : Tracker.record policy r.metric r.value world with
        ⟨answer, after⟩
      rw [recordedFirst] at first
      cases answer with
      | error e => exact first
      | ok execution =>
          have others := ih after
          simp only
          rcases recordedRest : recordAll policy rest after with ⟨answers, final⟩
          rw [recordedRest] at others
          cases answers <;> exact first.trans others

theorem track_store (policy : TransitionPolicy) (outcomes : List Outcome)
    (report : GroupEvaluation) (world : World σ) :
    (track policy outcomes report world).2.store =
      (recordAll policy (outcomes.filterMap Outcome.recording?) world).2.store := by
  rw [track_apply]
  rcases recordAll policy (outcomes.filterMap Outcome.recording?) world with ⟨answer, after⟩
  cases answer <;> rfl

theorem evaluateWith_apply (engine : Engine) (groupId : EntityId)
    (limits : QueryPhase.Limits) (world : World σ) :
    evaluateWith engine groupId limits world =
      match Store.findMetricsGroup groupId world.store with
      | .error e => (.error e, world)
      | .ok none => (.error (.notFound .metricsGroup groupId), world)
      | .ok (some g) =>
          match queryAll engine limits g.metrics world with
          | (.error e, asked) => (.error e, asked)
          | (.ok outcomes, asked) =>
              track engine.settings.transitionPolicy outcomes (.empty g.id) asked := by
  unfold evaluateWith
  rw [Action.bind_apply, Groups.find_apply]
  cases Store.findMetricsGroup groupId world.store with
  | error e => rfl
  | ok answer =>
      cases answer with
      | none => rfl
      | some g =>
          simp only [Action.required]
          rw [Action.bind_apply]
          rcases queryAll engine limits g.metrics world with ⟨outcomes, asked⟩
          cases outcomes <;> rfl

theorem queryAll_store (engine : Engine) (limits : QueryPhase.Limits)
    (metrics : List Metric) (world : World σ) :
    (queryAll engine limits metrics world).2.store = world.store :=
  rfl

def readings (engine : Engine) (groupId : EntityId) (limits : QueryPhase.Limits)
    (world : World σ) : List Recording :=
  match Store.findMetricsGroup groupId world.store with
  | .ok (some g) =>
      match queryAll engine limits g.metrics world with
      | (.ok outcomes, asked) =>
          recorded engine.settings.transitionPolicy
            (outcomes.filterMap Outcome.recording?) asked
      | (.error _, _) => []
  | _ => []

/-- An evaluation fails before it tracks anything, or it comes down to the tracking phase of a
group that is stored. -/
theorem evaluateWith_cases (engine : Engine) (groupId : EntityId)
    (limits : QueryPhase.Limits) (world : World σ) :
    (∃ fault after, evaluateWith engine groupId limits world = (.error fault, after) ∧
        after.store = world.store ∧ readings engine groupId limits world = []) ∨
      ∃ g outcomes asked, Store.findMetricsGroup groupId world.store = .ok (some g) ∧
        queryAll engine limits g.metrics world = (.ok outcomes, asked) ∧
        asked.store = world.store ∧
        readings engine groupId limits world =
          recorded engine.settings.transitionPolicy
            (outcomes.filterMap Outcome.recording?) asked ∧
        evaluateWith engine groupId limits world =
          track engine.settings.transitionPolicy outcomes (.empty g.id) asked := by
  rw [evaluateWith_apply, readings]
  cases Store.findMetricsGroup groupId world.store with
  | error e => exact .inl ⟨e, world, rfl, rfl, rfl⟩
  | ok answer =>
      cases answer with
      | none => exact .inl ⟨_, world, rfl, rfl, rfl⟩
      | some g =>
          have unchanged := queryAll_store engine limits g.metrics world
          simp only
          rcases answered : queryAll engine limits g.metrics world with ⟨outcomes, asked⟩
          rw [answered] at unchanged
          cases outcomes with
          | error e => exact .inl ⟨e, asked, rfl, unchanged, rfl⟩
          | ok outcomes =>
              exact .inr ⟨g, outcomes, asked, rfl, answered, unchanged, rfl, rfl⟩

theorem evaluateWith_writes (engine : Engine) (groupId : EntityId)
    (limits : QueryPhase.Limits) (world : World σ) :
    ExecutionWrites world.store (evaluateWith engine groupId limits world).2.store := by
  rcases evaluateWith_cases engine groupId limits world with
    ⟨fault, after, failed, unchanged, -⟩ | ⟨g, outcomes, asked, -, -, unchanged, -, tracked⟩
  · rw [failed, ← unchanged]
    exact Relation.ReflTransGen.refl
  · rw [tracked, track_store, ← unchanged]
    exact recordAll_writes _ _ asked

end Evaluation

end RolloutWatch

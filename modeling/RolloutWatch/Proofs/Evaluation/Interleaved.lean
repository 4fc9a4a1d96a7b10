import RolloutWatch.Proofs.Evaluation.Schedule
import RolloutWatch.Proofs.Evaluation.Tracking

/-!
Evaluations over all the interleavings of their tasks. The query phase may take any course; the
tracking phase goes through the outcomes in the order of the group, and reads and writes nothing
of the world but its store. So what an evaluation comes to is settled by the verdict of its query
phase.

Main statements: `hasCourses` says that an evaluation always comes to something, and that the
evaluation by the clock is one of these; `Evaluates.cases_of_loaded` says what any of them comes to.
-/

namespace RolloutWatch

namespace Engine

def withConcurrency (engine : Engine) (count : Nat) : Engine :=
  { engine with settings := { engine.settings with maxConcurrency := count } }

def withPolicy (engine : Engine) (policy : FailurePolicy) : Engine :=
  { engine with settings := { engine.settings with failurePolicy := policy } }

end Engine

variable {σ : Type} [Store σ]

namespace Tracker

theorem update_frame (e : MetricExecution) {world other : World σ}
    (same : other.store = world.store) :
    Tracker.update e other =
      ((Tracker.update e world).1,
        { other with store := (Tracker.update e world).2.store }) := by
  rw [update_apply, update_apply, same]
  cases Store.updateMetricExecution e world.store with
  | error fault => rw [← same]
  | ok result => rfl

theorem record_frame (policy : TransitionPolicy) (m : Metric) (value : Binary64)
    {world other : World σ} (same : other.store = world.store) :
    Tracker.record policy m value other =
      ((Tracker.record policy m value world).1,
        { other with store := (Tracker.record policy m value world).2.store }) := by
  rw [record_apply, record_apply, same]
  cases Store.findMetricExecution m.id world.store with
  | error e => rw [← same]
  | ok found =>
      cases found with
      | none => rw [← same]
      | some e => exact update_frame _ same

end Tracker

namespace Evaluation

theorem recordAll_frame (policy : TransitionPolicy) (rs : List Recording)
    {world other : World σ} (same : other.store = world.store) :
    recordAll policy rs other =
      ((recordAll policy rs world).1,
        { other with store := (recordAll policy rs world).2.store }) := by
  induction rs generalizing world other with
  | nil =>
      refine Prod.ext rfl ?_
      change other = { other with store := world.store }
      rw [← same]
  | cons r rest ih =>
      rw [recordAll_cons, recordAll_cons, Tracker.record_frame _ _ _ same]
      rcases Tracker.record policy r.metric r.value world with ⟨answer, after⟩
      cases answer with
      | error e => rfl
      | ok execution =>
          simp only
          have others : ({ other with store := after.store } : World σ).store = after.store := rfl
          rw [ih others]
          rcases recordAll policy rest after with ⟨answers, final⟩
          cases answers <;> rfl

theorem track_frame (policy : TransitionPolicy) (outcomes : List Outcome)
    (report : GroupEvaluation) {world other : World σ} (same : other.store = world.store) :
    track policy outcomes report other =
      ((track policy outcomes report world).1,
        { other with store := (track policy outcomes report world).2.store }) := by
  rw [track_apply, track_apply, recordAll_frame _ _ same]
  rcases recordAll policy (outcomes.filterMap Outcome.recording?) world with ⟨answer, after⟩
  cases answer <;> rfl

/-! ### Courses of an evaluation -/

def frame (engine : Engine) (ask : Nat → Driver → List UInt8 → List UInt8 → Asking)
    (limits : QueryPhase.Limits) (world : World σ) : QueryPhase.Frame :=
  { engine, findSource := fun id => Store.findDataSource id world.store, ask, limits }

/-- What follows the verdict of a query phase. -/
def settle (policy : TransitionPolicy) (groupId : EntityId) :
    Except Error (List Outcome) → Action σ GroupEvaluation
  | .error e => fun world => (.error e, world)
  | .ok outcomes => track policy outcomes (.empty groupId)

theorem settle_ok (policy : TransitionPolicy) (groupId : EntityId) (outcomes : List Outcome) :
    (settle policy groupId (.ok outcomes) : Action σ GroupEvaluation) =
      track policy outcomes (.empty groupId) :=
  rfl

/-- What an evaluation may come to. Its group is not loaded, or the tasks of the group's metrics
take any course up to a verdict, in any time. -/
inductive Evaluates (engine : Engine) (ask : Nat → Driver → List UInt8 → List UInt8 → Asking)
    (groupId : EntityId) (limits : QueryPhase.Limits) (world : World σ) :
    Except Error GroupEvaluation × World σ → Prop where
  | unloaded {e : Error} (unknown : Groups.find groupId world = (.error e, world)) :
      Evaluates engine ask groupId limits world (.error e, world)
  | settled {g : MetricsGroup} {s : QueryPhase.Tasks} {answer : Except Error (List Outcome)}
      {elapsed : Nat} (loaded : Store.findMetricsGroup groupId world.store = .ok (some g))
      (reached : QueryPhase.Reaches (frame engine ask limits world) world.registry g.metrics s)
      (verdict : s.verdict = some answer) :
      Evaluates engine ask groupId limits world
        (settle engine.settings.transitionPolicy g.id answer
          { world with
            registry := s.registry
            clock := world.clock + elapsed
            log := world.log ++ s.log })

/-- A group that is not loaded is not evaluated. -/
theorem loaded_or_unknown (groupId : EntityId) (world : World σ) :
    (∃ g, Store.findMetricsGroup groupId world.store = .ok (some g)) ∨
      ∃ e, Groups.find groupId world = (.error e, world) ∧
        ∀ (engine : Engine) (limits : QueryPhase.Limits),
          evaluateWith engine groupId limits world = (.error e, world) := by
  rw [Groups.find_apply]
  simp only [evaluateWith_apply]
  cases Store.findMetricsGroup groupId world.store with
  | error e => exact .inr ⟨e, rfl, fun _ _ => rfl⟩
  | ok answer =>
      cases answer with
      | none => exact .inr ⟨_, rfl, fun _ _ => rfl⟩
      | some g => exact .inl ⟨g, rfl⟩

/-- Whatever the drivers answer and however long they take, an evaluation comes to something. -/
theorem exists_evaluates (engine : Engine)
    (ask : Nat → Driver → List UInt8 → List UInt8 → Asking) (groupId : EntityId)
    (limits : QueryPhase.Limits) (world : World σ) :
    ∃ result, Evaluates engine ask groupId limits world result := by
  rcases loaded_or_unknown groupId world with ⟨g, loaded⟩ | ⟨e, unknown, -⟩
  · obtain ⟨s, reached, complete⟩ :=
      QueryPhase.exists_over (frame engine ask limits world) (.start world.registry g.metrics)
    obtain ⟨verdict, given⟩ := Option.isSome_iff_exists.mp complete.verdict
    let left : World σ :=
      { world with
        registry := s.registry
        clock := world.clock + 0
        log := world.log ++ s.log }
    exact ⟨settle engine.settings.transitionPolicy g.id verdict left,
      .settled loaded reached given⟩
  · exact ⟨_, .unloaded unknown⟩

/-- The course that a query phase takes by the clock, with the log and the registry that it
leaves. -/
theorem evaluateWith_course (engine : Engine) (limits : QueryPhase.Limits) {groupId : EntityId}
    {world : World σ} {g : MetricsGroup}
    (loaded : Store.findMetricsGroup groupId world.store = .ok (some g)) :
    ∃ (s : QueryPhase.Tasks) (answer : Except Error (List Outcome)) (elapsed : Nat),
      QueryPhase.Reaches (frame engine (fun _ => Driver.ask engine.network) limits world)
        world.registry g.metrics s ∧
      s.Over ∧ s.verdict = some answer ∧
      evaluateWith engine groupId limits world =
        settle engine.settings.transitionPolicy g.id answer
          { world with
            registry := s.registry
            clock := world.clock + elapsed
            log := world.log ++ s.log } := by
  obtain ⟨s, run, complete, verdict, registry, log⟩ :=
    QueryPhase.run_comes engine (fun id => Store.findDataSource id world.store) limits
      world.registry g.metrics
  rw [evaluateWith_apply, loaded]
  simp only [queryAll]
  generalize QueryPhase.run engine (fun id => Store.findDataSource id world.store) limits
    world.registry g.metrics = report at verdict registry log ⊢
  refine ⟨s, report.answer, report.elapsed, run, complete, verdict, ?_⟩
  rw [registry, log]
  cases report.answer <;> rfl

/-- The evaluation by the clock is one of those that are possible. -/
theorem evaluateWith_evaluates (engine : Engine) (groupId : EntityId)
    (limits : QueryPhase.Limits) (world : World σ) :
    Evaluates engine (fun _ => Driver.ask engine.network) groupId limits world
      (evaluateWith engine groupId limits world) := by
  rcases loaded_or_unknown groupId world with ⟨g, loaded⟩ | ⟨e, unknown, answered⟩
  · obtain ⟨s, answer, elapsed, reached, -, verdict, course⟩ :=
      evaluateWith_course engine limits loaded
    rw [course]
    exact .settled loaded reached verdict
  · rw [answered]
    exact .unloaded unknown

/-- Whatever the drivers answer, and however long they take, an evaluation comes to something. The
evaluation by the clock comes to one of the things that it may come to. -/
structure HasCourses (engine : Engine) (groupId : EntityId) (limits : QueryPhase.Limits)
    (world : World σ) : Prop where
  possible : ∀ ask : Nat → Driver → List UInt8 → List UInt8 → Asking,
    ∃ result, Evaluates engine ask groupId limits world result
  clocked : Evaluates engine (fun _ => Driver.ask engine.network) groupId limits world
    (evaluateWith engine groupId limits world)

theorem hasCourses (engine : Engine) (groupId : EntityId) (limits : QueryPhase.Limits)
    (world : World σ) : HasCourses engine groupId limits world where
  possible ask := exists_evaluates engine ask groupId limits world
  clocked := evaluateWith_evaluates engine groupId limits world

/-! ### What courses come to -/

open QueryPhase

def unlimited : Limits :=
  { cancelAfter := none, deadline := none }

/-- What comes of the metrics of a group, in their order. -/
def outcomes (engine : Engine) (ask : Nat → Driver → List UInt8 → List UInt8 → Asking)
    (world : World σ) (g : MetricsGroup) : List Outcome :=
  (number 0 g.metrics).map ((frame engine ask unlimited world).outcome world.registry)

theorem outcomes_metrics (engine : Engine)
    (ask : Nat → Driver → List UInt8 → List UInt8 → Asking) (world : World σ) (g : MetricsGroup) :
    (outcomes engine ask world g).map Outcome.metric = g.metrics := by
  unfold outcomes
  rw [List.map_map]
  exact number_metrics 0 g.metrics

def trackAll (engine : Engine) (ask : Nat → Driver → List UInt8 → List UInt8 → Asking)
    (world : World σ) (g : MetricsGroup) : Except Error GroupEvaluation × World σ :=
  track engine.settings.transitionPolicy (outcomes engine ask world g) (.empty g.id) world

def AllAnswered (engine : Engine) (ask : Nat → Driver → List UInt8 → List UInt8 → Asking)
    (world : World σ) (g : MetricsGroup) : Prop :=
  ∀ outcome ∈ outcomes engine ask world g, outcome.answer.isOk = true

def OfMetric (engine : Engine) (ask : Nat → Driver → List UInt8 → List UInt8 → Asking)
    (world : World σ) (g : MetricsGroup) (e : Error) : Prop :=
  ∃ entry ∈ number 0 g.metrics,
    (frame engine ask unlimited world).answer world.registry entry = .error e

/-- Somebody has cancelled the evaluation, or its time is up. -/
inductive Interrupted (limits : Limits) : Error → Prop where
  | cancelled (given : limits.cancelAfter.isSome = true) : Interrupted limits .cancelled
  | expired {deadline : Elapsed} (given : limits.deadline = some deadline) :
      Interrupted limits (.deadlineExceeded deadline)

theorem not_interrupted {e : Error} : ¬Interrupted unlimited e := by
  intro interrupted
  cases interrupted with
  | cancelled given => cases given
  | expired given => cases given

section

variable {engine : Engine} {ask : Nat → Driver → List UInt8 → List UInt8 → Asking}
  {groupId : EntityId} {limits : Limits} {world : World σ}
  {result : Except Error GroupEvaluation × World σ} {g : MetricsGroup}

theorem OfMetric.not_allAnswered {e : Error} (ofMetric : OfMetric engine ask world g e) :
    ¬AllAnswered engine ask world g := by
  obtain ⟨entry, member, failing⟩ := ofMetric
  intro all
  have answered : ((frame engine ask unlimited world).answer world.registry entry).isOk = true :=
    all _ (List.mem_map_of_mem member)
  rw [failing] at answered
  cases answered

theorem Evaluates.loaded (evaluates : Evaluates engine ask groupId limits world result) :
    (∃ e, result = (.error e, world)) ∨
      ∃ g, Store.findMetricsGroup groupId world.store = .ok (some g) := by
  cases evaluates with
  | unloaded unknown => exact .inl ⟨_, rfl⟩
  | settled found reached verdict => exact .inr ⟨_, found⟩

/-- An evaluation of a group is interrupted, or it fails fast at one of the metrics, and then it
leaves the store as it is; or it tracks what has come of all of them. -/
theorem Evaluates.cases_of_loaded (evaluates : Evaluates engine ask groupId limits world result)
    (loaded : Store.findMetricsGroup groupId world.store = .ok (some g)) :
    (∃ e, result.1 = .error e ∧ result.2.store = world.store ∧
        (Interrupted limits e ∨
          engine.settings.failurePolicy = .failFast ∧ OfMetric engine ask world g e)) ∨
      ((engine.settings.failurePolicy = .bestEffort ∨ AllAnswered engine ask world g) ∧
        result.1 = (trackAll engine ask world g).1 ∧
        result.2.store = (trackAll engine ask world g).2.store) := by
  cases evaluates with
  | unloaded unknown =>
      rw [Groups.find_apply, loaded] at unknown
      cases unknown
  | settled found reached verdict =>
      rename_i h s answer elapsed
      have same : h = g := Option.some.inj (Except.ok.inj (found.symm.trans loaded))
      subst same
      cases answer with
      | error e =>
          refine .inl ⟨e, rfl, rfl, ?_⟩
          rcases reached.sound.error_cases verdict with
            ⟨given, rfl⟩ | ⟨deadline, given, rfl⟩ | failed
          · exact .inl (.cancelled given)
          · exact .inl (.expired given)
          · exact .inr failed
      | ok answered =>
          obtain ⟨all, tolerated, -⟩ := reached.sound.outcomes verdict
          have own : answered = outcomes engine ask world h := all
          rw [own] at tolerated ⊢
          refine .inr ⟨tolerated, ?_⟩
          have unchanged : ({ world with
              registry := s.registry
              clock := world.clock + elapsed
              log := world.log ++ s.log } : World σ).store = world.store := rfl
          rw [settle_ok, track_frame _ _ _ unchanged]
          exact ⟨rfl, rfl⟩

/-- An evaluation that succeeds has tracked what has come of all the metrics of a stored group. -/
theorem Evaluates.succeeded (evaluates : Evaluates engine ask groupId limits world result)
    {report : GroupEvaluation} (succeeded : result.1 = .ok report) :
    ∃ g, Store.findMetricsGroup groupId world.store = .ok (some g) ∧
      (engine.settings.failurePolicy = .bestEffort ∨ AllAnswered engine ask world g) ∧
      (trackAll engine ask world g).1 = .ok report ∧
      result.2.store = (trackAll engine ask world g).2.store := by
  rcases evaluates.loaded with ⟨e, rfl⟩ | ⟨g, loaded⟩
  · cases succeeded
  · refine ⟨g, loaded, ?_⟩
    rcases evaluates.cases_of_loaded loaded with ⟨e, failed, -⟩ | ⟨tolerated, answered, store⟩
    · rw [succeeded] at failed
      cases failed
    · exact ⟨tolerated, answered.symm.trans succeeded, store⟩

/-- An evaluation stops at a failure if it is to fail fast and there is one. -/
def Stops (engine : Engine) (ask : Nat → Driver → List UInt8 → List UInt8 → Asking)
    (world : World σ) (g : MetricsGroup) : Prop :=
  engine.settings.failurePolicy = .failFast ∧ ¬AllAnswered engine ask world g

theorem Evaluates.stopped (evaluates : Evaluates engine ask groupId unlimited world result)
    (loaded : Store.findMetricsGroup groupId world.store = .ok (some g))
    (stops : Stops engine ask world g) :
    ∃ e, result.1 = .error e ∧ result.2.store = world.store ∧ OfMetric engine ask world g e := by
  rcases evaluates.cases_of_loaded loaded with
    ⟨e, failed, untouched, interrupted | ⟨-, ofMetric⟩⟩ | ⟨tolerated, -⟩
  · exact absurd interrupted not_interrupted
  · exact ⟨e, failed, untouched, ofMetric⟩
  · rcases tolerated with lenient | all
    · have both := stops.1.symm.trans lenient
      cases both
    · exact absurd all stops.2

theorem Evaluates.tracked (evaluates : Evaluates engine ask groupId unlimited world result)
    (loaded : Store.findMetricsGroup groupId world.store = .ok (some g))
    (continues : ¬Stops engine ask world g) :
    result.1 = (trackAll engine ask world g).1 ∧
      result.2.store = (trackAll engine ask world g).2.store := by
  rcases evaluates.cases_of_loaded loaded with
    ⟨e, -, -, interrupted | ⟨policy, ofMetric⟩⟩ | ⟨-, tracked⟩
  · exact absurd interrupted not_interrupted
  · exact absurd ⟨policy, ofMetric.not_allAnswered⟩ continues
  · exact tracked

end

end Evaluation

end RolloutWatch

import RolloutWatch.Proofs.Evaluation.Report
import RolloutWatch.Proofs.Evaluation.Success
import RolloutWatch.Proofs.Evaluation.Untouched

/-!
What an evaluation comes to does not depend on the course of its tasks. Every task has its own
answer, whichever task moves first, and the tracking phase takes the answers in the order of the
group. Only an evaluation that fails fast may see one failure or another first; but whether there
is one to see depends on the answers alone.

Main statements: `completion_order_irrelevant` and `policies_agree`.
-/

namespace RolloutWatch

namespace Keyed

variable {α β : Type}

theorem put_ne_nil (key : String) (entry : α) (table : List (String × α)) :
    put key entry table ≠ [] := by
  cases table with
  | nil => exact List.cons_ne_nil _ _
  | cons first rest =>
      unfold put
      split
      · exact List.cons_ne_nil _ _
      · split <;> exact List.cons_ne_nil _ _

theorem collect_ne_nil (key : β → String) (entry : β → Option α) (items : List β)
    {table : List (String × α)} (some : table ≠ []) : collect key entry items table ≠ [] := by
  induction items generalizing table with
  | nil => exact some
  | cons item rest ih =>
      have entered : enter (key item) (entry item) table ≠ [] := by
        cases entry item with
        | none => exact some
        | some value => exact put_ne_nil _ _ _
      exact ih entered

theorem collect_eq_nil (key : β → String) (entry : β → Option α) (items : List β) :
    collect key entry items [] = [] ↔ ∀ item ∈ items, entry item = none := by
  induction items with
  | nil => exact iff_of_true rfl fun _ member => absurd member List.not_mem_nil
  | cons item rest ih =>
      rw [List.forall_mem_cons]
      cases answered : entry item with
      | none =>
          rw [← ih, and_iff_right rfl]
          unfold collect
          rw [List.foldl_cons, answered]
          exact Iff.rfl
      | some value =>
          refine iff_of_false ?_ fun both => by cases both.1
          unfold collect
          rw [List.foldl_cons, answered]
          exact collect_ne_nil key entry rest (put_ne_nil _ _ _)

end Keyed

/-! ### Drivers that answer alike -/

/-- Two registries have the same fault for a kind, or drivers with the same answers. Each of the
drivers may take its own time for an answer, up to the time limit. -/
inductive AnswersAlike (limit : Elapsed)
    (ask other : Nat → Driver → List UInt8 → List UInt8 → Asking) :
    Except Error Driver → Except Error Driver → Prop where
  | fault (e : Error) : AnswersAlike limit ask other (.error e) (.error e)
  | drivers {d d' : Driver}
      (same : ∀ index connection spec,
        (ask index d connection spec).answer = (other index d' connection spec).answer)
      (inTime : ∀ index connection spec, (ask index d connection spec).InTime limit)
      (otherInTime : ∀ index connection spec, (other index d' connection spec).InTime limit) :
      AnswersAlike limit ask other (.ok d) (.ok d')

theorem scripts_alike {limit : Elapsed} {script other : Script}
    (values : other.values = script.values) (errors : other.errors = script.errors)
    (inTime : script.InTime limit) (otherInTime : other.InTime limit) (network : Network) :
    AnswersAlike limit (fun _ => Driver.ask network) (fun _ => Driver.ask network)
      (.ok (.scripted script)) (.ok (.scripted other)) := by
  constructor
  · intro _ _ spec
    simp only [Driver.ask, Driver.askScript]
    cases QuerySpec.ofBytes? spec with
    | none => rfl
    | some question =>
        simp only [Script.answer]
        rw [values, errors]
  · exact fun _ _ spec => inTime.ask spec
  · exact fun _ _ spec => otherInTime.ask spec

namespace QueryPhase

theorem answer_alike {frame other : Frame} {registry otherRegistry : DriverRegistry}
    (cipher : other.engine.cipher = frame.engine.cipher)
    (timeout : other.engine.settings.metricTimeout = frame.engine.settings.metricTimeout)
    (sources : other.findSource = frame.findSource)
    (alike : ∀ kind, AnswersAlike frame.engine.settings.metricTimeout frame.ask other.ask
      (registry.answer kind) (otherRegistry.answer kind)) (entry : Nat × Metric) :
    other.answer otherRegistry entry = frame.answer registry entry := by
  unfold Frame.answer access
  rw [sources, cipher]
  cases frame.findSource entry.2.dataSourceId with
  | error e => rfl
  | ok found =>
      cases found with
      | none => rfl
      | some source =>
          have related := alike source.pluginSrc
          rw [← DriverRegistry.resolve_answer, ← DriverRegistry.resolve_answer] at related
          simp only
          rcases resolved : registry.resolve source.pluginSrc with ⟨answer, after⟩
          rcases resolvedOther : otherRegistry.resolve source.pluginSrc with ⟨answer', after'⟩
          rw [resolved, resolvedOther] at related
          simp only at related
          cases related with
          | fault e => rfl
          | drivers same inTime otherInTime =>
              simp only
              cases frame.engine.cipher.openConfig source.sealedData with
              | error e => rfl
              | ok config =>
                  simp only [Frame.begun]
                  rw [timeout, limited_inTime (inTime _ _ _), limited_inTime (otherInTime _ _ _),
                    same]

end QueryPhase

namespace Evaluation

open QueryPhase

variable {σ : Type} [Store σ]

/-! ### Independence of the order in which queries end -/

/-- Any two undisturbed evaluations of a group agree if their drivers answer alike, whatever the
time that the answers take and the number of queries that may run at once. -/
def OrderIrrelevant (engine : Engine) (groupId : EntityId) (world other : World σ) : Prop :=
  ∀ (g : MetricsGroup) (count otherCount : Nat)
    (ask otherAsk : Nat → Driver → List UInt8 → List UInt8 → Asking)
    (result otherResult : Except Error GroupEvaluation × World σ),
    Store.findMetricsGroup groupId world.store = .ok (some g) →
    (∀ kind, AnswersAlike engine.settings.metricTimeout ask otherAsk (world.registry.answer kind)
      (other.registry.answer kind)) →
    Evaluates (engine.withConcurrency count) ask groupId unlimited world result →
    Evaluates (engine.withConcurrency otherCount) otherAsk groupId unlimited other otherResult →
    (∃ report, result.1 = .ok report ∧ otherResult.1 = .ok report ∧
        result.2.store = otherResult.2.store) ∨
      engine.settings.failurePolicy = .failFast ∧
        ∃ e e', result.1 = .error e ∧ otherResult.1 = .error e' ∧
          OfMetric engine ask world g e ∧ OfMetric engine ask world g e'

theorem orderIrrelevant_of_recordable {ready : EntityId → σ → Prop}
    (recordable : Recordable ready) {engine : Engine} {groupId : EntityId} {world other : World σ}
    (same : other.store = world.store)
    (loads : ∀ g, Store.findMetricsGroup groupId world.store = .ok (some g) →
      (g.metrics.map Metric.id).Nodup ∧ ∀ m ∈ g.metrics, ready m.id world.store) :
    OrderIrrelevant engine groupId world other := by
  intro g count otherCount ask otherAsk result otherResult loaded alike evaluates otherEvaluates
  have otherLoaded : Store.findMetricsGroup groupId other.store = .ok (some g) := by
    rw [same]
    exact loaded
  have answers : ∀ entry,
      (frame (engine.withConcurrency otherCount) otherAsk unlimited other).answer
          other.registry entry =
        (frame (engine.withConcurrency count) ask unlimited world).answer world.registry entry := by
    refine answer_alike rfl rfl ?_ alike
    unfold frame
    rw [same]
  have sameOutcomes : outcomes (engine.withConcurrency otherCount) otherAsk other g =
      outcomes (engine.withConcurrency count) ask world g :=
    List.map_congr_left fun entry _ => congrArg (Outcome.ofEntry entry) (answers entry)
  have sameStops : Stops (engine.withConcurrency otherCount) otherAsk other g ↔
      Stops (engine.withConcurrency count) ask world g := by
    unfold Stops AllAnswered
    rw [sameOutcomes]
    exact Iff.rfl
  by_cases stops : Stops (engine.withConcurrency count) ask world g
  · obtain ⟨e, failed, -, ofMetric⟩ := evaluates.stopped loaded stops
    obtain ⟨e', otherFailed, -, entry, member, failing⟩ :=
      otherEvaluates.stopped otherLoaded (sameStops.mpr stops)
    refine .inr ⟨stops.1, e, e', failed, otherFailed, ofMetric, entry, member, ?_⟩
    exact (answers entry).symm.trans failing
  · obtain ⟨answered, store⟩ := evaluates.tracked loaded stops
    obtain ⟨otherAnswered, otherStore⟩ :=
      otherEvaluates.tracked otherLoaded fun others => stops (sameStops.mp others)
    have policies : (engine.withConcurrency otherCount).settings.transitionPolicy =
        (engine.withConcurrency count).settings.transitionPolicy := rfl
    unfold trackAll at otherAnswered otherStore
    rw [sameOutcomes, policies, track_frame _ _ _ same] at otherAnswered otherStore
    obtain ⟨report, after, tracked⟩ :=
      exists_trackAll recordable (engine.withConcurrency count) ask (loads g loaded)
    rw [tracked] at answered
    unfold trackAll at tracked
    rw [tracked] at otherAnswered
    exact .inl ⟨report, answered, otherAnswered, store.trans otherStore.symm⟩

/-- In every state of a store that the services lead to, what an evaluation comes to does not depend
on the order in which its queries end. There are such evaluations, whatever the drivers do, and the
evaluation by the clock is one of them. -/
theorem completion_order_irrelevant (engine : Engine) (groupId : EntityId) :
    (∀ {σ : Type} [Store σ] (count : Nat) (limits : Limits) (world : World σ),
      HasCourses (engine.withConcurrency count) groupId limits world) ∧
      (∀ (turns : List Turn) (world other : World MemoryStore),
        world.store = Turn.run turns .empty → other.store = world.store →
        OrderIrrelevant engine groupId world other) ∧
      ∀ world other : World RelationalStore,
        RelationalStore.Reachable world.store → other.store = world.store →
        OrderIrrelevant engine groupId world other := by
  refine ⟨fun count limits world => hasCourses _ groupId limits world, ?_, ?_⟩
  · intro turns world other reached same
    have linked := MemoryStore.linked_of_run reached
    exact orderIrrelevant_of_recordable MemoryStore.recordable same
      fun g loaded => linked.loads loaded
  · intro world other reachable same
    exact orderIrrelevant_of_recordable RelationalStore.recordable same
      fun g loaded => RelationalStore.loads reachable.uniqueKeys loaded

def slowScript : Script :=
  { fullScript with delays := [("errors", { milliseconds := 5000 })] }

theorem slowScript_inTime : slowScript.InTime sealingEngine.settings.metricTimeout :=
  Script.inTime_of_delays (List.forall_mem_singleton.mpr (by decide)) rfl

theorem canaries_alike {script : Script} (kind : script.kind = "scripted")
    (values : script.values = fullScript.values) (errors : script.errors = fullScript.errors)
    (inTime : script.InTime sealingEngine.settings.metricTimeout) (name : String) :
    AnswersAlike sealingEngine.settings.metricTimeout
      (fun _ => Driver.ask sealingEngine.network) (fun _ => Driver.ask sealingEngine.network)
      ((scriptedWorld fullScript MemoryStore.empty).registry.answer name)
      ((scriptedWorld script MemoryStore.empty).registry.answer name) := by
  change AnswersAlike _ _ _
    ((DriverRegistry.empty.registerDriver (.scripted fullScript)).answer name)
    ((DriverRegistry.empty.registerDriver (.scripted script)).answer name)
  have named : (Driver.scripted fullScript).kind = "scripted" := rfl
  have otherNamed : (Driver.scripted script).kind = "scripted" := kind
  rw [registerDriver_answer, registerDriver_answer, named, otherNamed]
  by_cases same : "scripted" = name
  · rw [if_pos same, if_pos same]
    exact scripts_alike values errors (fullScript_inTime _) inTime _
  · rw [if_neg same, if_neg same]
    exact .fault _

/-- The queries of two canaries wait for each other, or the driver is slow with the first one, so
that the second one's query ends first. -/
theorem slow_canaries_evaluate_alike :
    ∃ report after slow,
      evaluateWith (sealingEngine.withConcurrency 1) watchedGroup.id unlimited
          (scriptedWorld fullScript MemoryStore.empty) = (.ok report, after) ∧
        evaluateWith (sealingEngine.withConcurrency 4) watchedGroup.id unlimited
          (scriptedWorld slowScript MemoryStore.empty) = (.ok report, slow) ∧
        after.store = slow.store ∧
        report.executions.map (fun e => (e.lastValue, e.status)) = watchedStates := by
  obtain ⟨courses, inMemory, -⟩ := completion_order_irrelevant sealingEngine watchedGroup.id
  obtain ⟨g, report, after, answers⟩ := memory_answers
  have four : sealingEngine.withConcurrency 4 = sealingEngine := rfl
  have agree (script : Script) (kind : script.kind = "scripted")
      (values : script.values = fullScript.values) (errors : script.errors = fullScript.errors)
      (inTime : script.InTime sealingEngine.settings.metricTimeout) (count : Nat) :
      ∃ left, evaluateWith (sealingEngine.withConcurrency count) watchedGroup.id unlimited
          (scriptedWorld script MemoryStore.empty) = (.ok report, left) ∧
        after.store = left.store := by
    have both := inMemory answeringTurns _ (scriptedWorld script MemoryStore.empty)
      (scriptedWorld_store fullScript _) rfl g 4 count _ _ _ _ answers.loaded
      (canaries_alike kind values errors inTime) (courses 4 unlimited _).clocked
      (courses count unlimited _).clocked
    rw [four, answers.evaluated] at both
    rcases both with ⟨same, succeeded, otherSucceeded, stores⟩ | ⟨-, _, _, failed, -⟩
    · cases succeeded
      exact ⟨_, answered_pair otherSucceeded, stores⟩
    · cases failed
  obtain ⟨prompt, promptly, promptStore⟩ :=
    agree fullScript rfl rfl rfl (fullScript_inTime _) 1
  obtain ⟨slow, slowly, slowStore⟩ := agree slowScript rfl rfl rfl slowScript_inTime 4
  exact ⟨report, prompt, slow, promptly, slowly, promptStore.symm.trans slowStore, answers.states⟩

/-! ### Agreement of the two policies -/

/-- An undisturbed evaluation that fails fast succeeds exactly if the one that does its best has no
failures to report, and then they agree. Otherwise it fails, and writes nothing. -/
def PoliciesAgree (engine : Engine) (groupId : EntityId) (world : World σ) : Prop :=
  ∀ (g : MetricsGroup) (ask : Nat → Driver → List UInt8 → List UInt8 → Asking)
    (fast best : Except Error GroupEvaluation × World σ),
    Store.findMetricsGroup groupId world.store = .ok (some g) →
    Evaluates (engine.withPolicy .failFast) ask groupId unlimited world fast →
    Evaluates (engine.withPolicy .bestEffort) ask groupId unlimited world best →
    ∃ report, best.1 = .ok report ∧
      ((∃ report, fast.1 = .ok report) ↔ report.failures = []) ∧
      (∀ other, fast.1 = .ok other → other = report ∧ fast.2.store = best.2.store) ∧
      ∀ e, fast.1 = .error e → fast.2.store = world.store ∧ report.isComplete = false

theorem failures_eq_nil {report : GroupEvaluation} {given : List Outcome}
    (failures : report.failures = Keyed.collect Outcome.key Outcome.fault? given []) :
    report.failures = [] ↔ ∀ outcome ∈ given, outcome.answer.isOk = true := by
  rw [failures, Keyed.collect_eq_nil]
  refine forall₂_congr fun outcome _ => ?_
  unfold Outcome.fault?
  cases outcome.answer with
  | ok result => exact iff_of_true rfl rfl
  | error e => exact iff_of_false (fun none => by cases none) Bool.false_ne_true

theorem policiesAgree_of_recordable {ready : EntityId → σ → Prop}
    (recordable : Recordable ready) {engine : Engine} {groupId : EntityId} {world : World σ}
    (loads : ∀ g, Store.findMetricsGroup groupId world.store = .ok (some g) →
      (g.metrics.map Metric.id).Nodup ∧ ∀ m ∈ g.metrics, ready m.id world.store) :
    PoliciesAgree engine groupId world := by
  intro g ask fast best loaded evaluatesFast evaluatesBest
  obtain ⟨report, after, tracked⟩ := exists_trackAll recordable engine ask (loads g loaded)
  have allAnswered : report.failures = [] ↔ AllAnswered engine ask world g :=
    failures_eq_nil (track_tables (congrArg Prod.fst tracked)).2
  have lenient : ¬Stops (engine.withPolicy .bestEffort) ask world g := fun stops => by
    cases stops.1
  obtain ⟨answered, store⟩ := evaluatesBest.tracked loaded lenient
  have bestAnswer : best.1 = .ok report := answered.trans (congrArg Prod.fst tracked)
  by_cases all : AllAnswered engine ask world g
  · have continues : ¬Stops (engine.withPolicy .failFast) ask world g := fun stops => stops.2 all
    obtain ⟨fastAnswered, fastStore⟩ := evaluatesFast.tracked loaded continues
    have fastAnswer : fast.1 = .ok report := fastAnswered.trans (congrArg Prod.fst tracked)
    refine ⟨report, bestAnswer, iff_of_true ⟨report, fastAnswer⟩ (allAnswered.mpr all), ?_, ?_⟩
    · intro other succeeded
      exact ⟨Except.ok.inj (succeeded.symm.trans fastAnswer), fastStore.trans store.symm⟩
    · intro e failed
      rw [fastAnswer] at failed
      cases failed
  · have stops : Stops (engine.withPolicy .failFast) ask world g := ⟨rfl, all⟩
    obtain ⟨e, fastFailed, untouched, -⟩ := evaluatesFast.stopped loaded stops
    have incomplete : report.failures ≠ [] := fun none => all (allAnswered.mp none)
    refine ⟨report, bestAnswer, ?_, ?_, ?_⟩
    · refine iff_of_false ?_ incomplete
      rintro ⟨other, succeeded⟩
      rw [fastFailed] at succeeded
      cases succeeded
    · intro other succeeded
      rw [fastFailed] at succeeded
      cases succeeded
    · exact fun _ _ => ⟨untouched, List.isEmpty_eq_false_iff.mpr incomplete⟩

/-- In every state of a store that the services lead to, the two policies agree on a group as long
as nothing fails, and one of them reports what the other fails at. -/
theorem policies_agree (engine : Engine) (groupId : EntityId) :
    (∀ {σ : Type} [Store σ] (policy : FailurePolicy) (world : World σ),
      HasCourses (engine.withPolicy policy) groupId unlimited world) ∧
      (∀ (turns : List Turn) (world : World MemoryStore),
        world.store = Turn.run turns .empty → PoliciesAgree engine groupId world) ∧
      ∀ world : World RelationalStore,
        RelationalStore.Reachable world.store → PoliciesAgree engine groupId world := by
  refine ⟨fun policy world => hasCourses _ groupId unlimited world, ?_, ?_⟩
  · intro turns world reached
    have linked := MemoryStore.linked_of_run reached
    exact policiesAgree_of_recordable MemoryStore.recordable fun g loaded => linked.loads loaded
  · intro world reachable
    exact policiesAgree_of_recordable RelationalStore.recordable
      fun g loaded => RelationalStore.loads reachable.uniqueKeys loaded

/-- Both canaries are answered, and so both policies report and store the same. If only one of them
is answered, the evaluation fails at once, or the report is not complete. -/
theorem canaries_policies_agree :
    (∃ report fast best,
      evaluateWith (sealingEngine.withPolicy .failFast) watchedGroup.id unlimited
          (scriptedWorld fullScript MemoryStore.empty) = (.ok report, fast) ∧
        evaluateWith (sealingEngine.withPolicy .bestEffort) watchedGroup.id unlimited
            (scriptedWorld fullScript MemoryStore.empty) = (.ok report, best) ∧
        fast.store = best.store ∧ report.failures = [] ∧
        report.executions.map (fun e => (e.lastValue, e.status)) = watchedStates) ∧
      ∃ e fast report best,
        evaluateWith (sealingEngine.withPolicy .failFast) watchedGroup.id unlimited
            (scriptedWorld halfScript (RelationalStore.onDatabase .empty)) = (.error e, fast) ∧
          evaluateWith (sealingEngine.withPolicy .bestEffort) watchedGroup.id unlimited
              (scriptedWorld halfScript (RelationalStore.onDatabase .empty)) = (.ok report, best) ∧
          fast.store = (scriptedWorld halfScript (RelationalStore.onDatabase .empty)).store ∧
          report.isComplete = false := by
  obtain ⟨courses, inMemory, inDatabase⟩ := policies_agree sealingEngine watchedGroup.id
  have strict : sealingEngine.withPolicy .failFast = sealingEngine := rfl
  constructor
  · obtain ⟨g, report, after, answers⟩ := memory_answers
    obtain ⟨given, succeeded, agree, same, -⟩ :=
      inMemory answeringTurns _ (scriptedWorld_store fullScript _) g _ _ _ answers.loaded
        (courses .failFast _).clocked (courses .bestEffort _).clocked
    rw [strict, answers.evaluated] at agree same
    rw [strict]
    obtain ⟨rfl, stores⟩ := same report rfl
    exact ⟨report, after, _, answers.evaluated, answered_pair succeeded, stores,
      agree.mp ⟨report, rfl⟩, answers.states⟩
  · obtain ⟨g, e, fast, answers⟩ := relational_halfAnswers
    obtain ⟨given, succeeded, -, -, incomplete⟩ :=
      inDatabase _ (answering_reachable halfScript) g _ _ _ answers.loaded
        (courses .failFast _).clocked (courses .bestEffort _).clocked
    rw [strict, answers.evaluated] at incomplete
    obtain ⟨untouched, notComplete⟩ := incomplete e rfl
    exact ⟨e, fast, given, _, answers.evaluated, answered_pair succeeded, untouched, notComplete⟩

end Evaluation

end RolloutWatch

import RolloutWatch.Proofs.Cipher.Credential
import RolloutWatch.Proofs.Evaluation.Interleaved
import RolloutWatch.Proofs.Metric.QuerySpec
import RolloutWatch.Proofs.Relational.Runs

/-!
Evaluations with scripted drivers. A script that is in time answers for a metric by its name, so
that what comes of a group is what the script has for its metrics, once their sources can be opened
and name the script.

Main statement: `Scripted.outcomes`.
-/

namespace RolloutWatch

/-- The answer is there before the time limit is over. -/
def Asking.InTime (limit : Elapsed) (asking : Asking) : Prop :=
  ∀ delay, asking.delay = some delay → delay.milliseconds ≤ limit.milliseconds

namespace Script

def InTime (limit : Elapsed) (s : Script) : Prop :=
  ∀ metric delay, s.delayOf metric = some delay → delay.milliseconds ≤ limit.milliseconds

def answerFor (s : Script) (m : Metric) : Except Error Json.Value :=
  match s.answer m.metric with
  | .ok value => .ok value
  | .error e => .error (.query m.resultKey (.driver e))

theorem inTime_of_delays {limit : Elapsed} {s : Script}
    (own : ∀ entry ∈ s.delays, entry.2.milliseconds ≤ limit.milliseconds)
    (prompt : s.delay = none) : s.InTime limit := by
  intro metric delay delayed
  unfold delayOf at delayed
  cases found : Keyed.get? metric s.delays with
  | none =>
      rw [found, prompt] at delayed
      cases delayed
  | some d =>
      rw [found] at delayed
      cases delayed
      obtain ⟨entry, listed, rfl⟩ := Option.map_eq_some_iff.mp found
      exact own entry (List.mem_of_find?_eq_some listed)

theorem InTime.ask {limit : Elapsed} {s : Script} (inTime : s.InTime limit)
    (spec : List UInt8) : (Driver.askScript s spec).InTime limit := by
  intro delay delayed
  unfold Driver.askScript at delayed
  cases read : QuerySpec.ofBytes? spec with
  | none =>
      rw [read] at delayed
      cases delayed
  | some question =>
      rw [read] at delayed
      exact inTime _ delay delayed

end Script

theorem registerDriver_answer (driver : Driver) (kind : String) :
    (DriverRegistry.empty.registerDriver driver).answer kind =
      if driver.kind = kind then .ok driver else .error (.driverNotFound kind) := by
  have absent : Keyed.get? kind ([] : List (String × DriverFactory)) = none := rfl
  have unloaded : Keyed.get? kind ([] : List (String × Driver)) = none := rfl
  simp only [DriverRegistry.answer, DriverRegistry.registerDriver, DriverRegistry.register,
    DriverRegistry.empty, unloaded, Keyed.get?_put, absent, Option.or_none]
  by_cases same : driver.kind = kind
  · simp only [if_pos same]
    rfl
  · simp only [if_neg same]

namespace QueryPhase

theorem limited_inTime {limit : Elapsed} {asking : Asking} (inTime : asking.InTime limit)
    (m : Metric) (kind : String) :
    (limited limit m kind asking).answer =
      match asking.answer with
      | .ok value => .ok value
      | .error e => .error (.query m.resultKey (.driver e)) := by
  unfold limited
  cases delayed : asking.delay with
  | none => rfl
  | some delay =>
      exact congrArg Begun.answer (if_pos (inTime delay delayed))

theorem Frame.begun_scripted {frame : Frame} {script : Script}
    (asks : frame.ask = fun _ => Driver.ask frame.engine.network)
    (inTime : script.InTime frame.engine.settings.metricTimeout) (entry : Nat × Metric)
    (connection : List UInt8) :
    (frame.begun entry { driver := .scripted script, connection }).answer =
      script.answerFor entry.2 := by
  have read : QuerySpec.ofBytes? entry.2.querySpec.toBytes = some entry.2.querySpec :=
    QuerySpec.ofBytes_toBytes _
  have asked : Driver.ask frame.engine.network (.scripted script) connection
      entry.2.querySpec.toBytes = Driver.askScript script entry.2.querySpec.toBytes := rfl
  have answered : (Driver.askScript script entry.2.querySpec.toBytes).answer =
      script.answer entry.2.metric := by
    unfold Driver.askScript
    rw [read]
    rfl
  unfold Frame.begun
  rw [asks]
  dsimp only
  rw [asked, limited_inTime (inTime.ask _), answered]
  rfl

end QueryPhase

namespace Evaluation

variable {σ : Type} [Store σ]

/-- The sources of all metrics of the group are stored and can be opened, and the driver of each is
the script. -/
structure Scripted (engine : Engine) (world : World σ) (g : MetricsGroup) (script : Script) :
    Prop where
  inTime : script.InTime engine.settings.metricTimeout
  source : ∀ m ∈ g.metrics, ∃ source config,
    Store.findDataSource m.dataSourceId world.store = .ok (some source) ∧
      (world.registry.resolve source.pluginSrc).1 = .ok (.scripted script) ∧
      engine.cipher.openConfig source.sealedData = .ok config

def scriptedOutcomes (script : Script) (g : MetricsGroup) : List Outcome :=
  (QueryPhase.number 0 g.metrics).map fun entry => .ofEntry entry (script.answerFor entry.2)

section

variable {engine : Engine} {world : World σ} {g : MetricsGroup} {script : Script}

theorem Scripted.outcomes (scripted : Scripted engine world g script) :
    Evaluation.outcomes engine (fun _ => Driver.ask engine.network) world g =
      scriptedOutcomes script g := by
  refine List.map_congr_left fun entry listed => congrArg (Outcome.ofEntry entry) ?_
  have member : entry.2 ∈ g.metrics := by
    rw [← QueryPhase.number_metrics 0 g.metrics]
    exact List.mem_map_of_mem listed
  obtain ⟨source, config, found, resolved, opened⟩ := scripted.source entry.2 member
  refine Eq.trans (QueryPhase.Frame.answer_of_access found resolved opened) ?_
  exact QueryPhase.Frame.begun_scripted rfl scripted.inTime entry _

/-- A script that lacks an answer stops an evaluation that is to fail fast. -/
theorem Scripted.stops (scripted : Scripted engine world g script)
    (strict : engine.settings.failurePolicy = .failFast)
    (lacks : (g.metrics.all fun m => (script.answerFor m).isOk) = false) :
    Stops engine (fun _ => Driver.ask engine.network) world g := by
  refine ⟨strict, fun all => ?_⟩
  obtain ⟨m, member, failed⟩ := List.all_eq_false.mp lacks
  rw [← QueryPhase.number_metrics 0 g.metrics] at member
  obtain ⟨entry, listed, rfl⟩ := List.mem_map.mp member
  refine failed (all (.ofEntry entry (script.answerFor entry.2)) ?_)
  rw [scripted.outcomes]
  exact List.mem_map_of_mem listed

theorem Scripted.continues (scripted : Scripted engine world g script)
    (tolerated : engine.settings.failurePolicy = .bestEffort ∨
      (g.metrics.all fun m => (script.answerFor m).isOk) = true) :
    ¬Stops engine (fun _ => Driver.ask engine.network) world g := by
  rintro ⟨strict, notAll⟩
  rcases tolerated with lenient | has
  · have both := strict.symm.trans lenient
    cases both
  · refine notAll fun outcome present => ?_
    rw [scripted.outcomes] at present
    obtain ⟨entry, listed, rfl⟩ := List.mem_map.mp present
    have member : entry.2 ∈ g.metrics := by
      rw [← QueryPhase.number_metrics 0 g.metrics]
      exact List.mem_map_of_mem listed
    exact List.all_eq_true.mp has entry.2 member

/-- The evaluation by the clock tracks what the script has for the metrics. -/
theorem Scripted.evaluateWith (scripted : Scripted engine world g script) {groupId : EntityId}
    (loaded : Store.findMetricsGroup groupId world.store = .ok (some g))
    (tolerated : engine.settings.failurePolicy = .bestEffort ∨
      (g.metrics.all fun m => (script.answerFor m).isOk) = true) :
    (Evaluation.evaluateWith engine groupId unlimited world).1 =
      (track engine.settings.transitionPolicy (scriptedOutcomes script g) (.empty g.id) world).1 := by
  have evaluates := evaluateWith_evaluates engine groupId unlimited world
  rw [(evaluates.tracked loaded (scripted.continues tolerated)).1, ← scripted.outcomes]
  rfl

end

/-! ### Canaries whose driver is scripted -/

def sealingEngine : Engine :=
  { Canary.engine with cipher := { key := List.replicate 32 0 } }

def answeringSource : NewDataSource :=
  { name := "scripted", workspaceId := .ofNat 9, pluginSrc := "scripted", data := .null }

/-- Two canaries under names of their own, of which the second one is met by negative readings. -/
def watchedGroup : MetricsGroup :=
  { Canary.group with
    metrics :=
      [{ Canary.metric 3 with metric := "errors" },
        { Canary.metric 7 with metric := "latency", condition := some .lessThan }] }

def answeringTurns : List Turn :=
  [{ Canary.turn (.createSource answeringSource) 1 with engine := sealingEngine },
    Canary.turn (.createGroup watchedGroup) 100]

def scriptedWorld (script : Script) {σ : Type} [Store σ] (start : σ) : World σ :=
  { (Canary.turn .listGroups 0).world (Turn.run answeringTurns start) with
    registry := DriverRegistry.empty.registerDriver (.scripted script) }

theorem scriptedWorld_store (script : Script) (start : σ) :
    (scriptedWorld script start).store = Turn.run answeringTurns start :=
  rfl

theorem answering_reachable (script : Script) :
    RelationalStore.Reachable (scriptedWorld script (RelationalStore.onDatabase .empty)).store := by
  rw [scriptedWorld_store]
  exact .next _ (.next _ .created)

/-- The canaries are read from the two stores alike, although a database sorts their rows. -/
theorem findMetricsGroup_answering (script : Script) :
    Store.findMetricsGroup watchedGroup.id
        (scriptedWorld script (RelationalStore.onDatabase .empty)).store =
      (Store.findMetricsGroup watchedGroup.id
        (scriptedWorld script MemoryStore.empty).store).map (Option.map MetricsGroup.settled) := by
  have common : ∀ turn ∈ answeringTurns, turn.InCommonYears :=
    List.forall_mem_cons.mpr ⟨Canary.turn_inCommonYears (.createSource answeringSource) 1,
      List.forall_mem_singleton.mpr (Canary.turn_inCommonYears (.createGroup watchedGroup) 100)⟩
  have mirrored : Turn.run answeringTurns (RelationalStore.onDatabase .empty) =
      (Turn.run answeringTurns MemoryStore.empty).mirror :=
    (Turn.stores_agree (by decide +kernel) (by decide +kernel) common (by decide +kernel)).2
  have linked : MemoryStore.Linked (Turn.run answeringTurns MemoryStore.empty) :=
    MemoryStore.linked_of_run rfl
  rw [scriptedWorld_store, scriptedWorld_store, mirrored]
  exact MemoryStore.mirror_findMetricsGroup linked (by decide +kernel) _

/-- A script with readings of one for the first canary and of two for the second one. -/
def fullScript : Script :=
  { Script.silent "scripted" with
    values := [("errors", .number (.integer 1)), ("latency", .number (.integer 2))] }

def halfScript : Script :=
  { Script.silent "scripted" with values := [("errors", .number (.integer 1))] }

theorem fullScript_inTime (limit : Elapsed) : fullScript.InTime limit :=
  Script.inTime_of_delays (fun _ member => absurd member List.not_mem_nil) rfl

theorem halfScript_inTime (limit : Elapsed) : halfScript.InTime limit :=
  Script.inTime_of_delays (fun _ member => absurd member List.not_mem_nil) rfl

def sealedSource : DataSource :=
  (Sources.prepare sealingEngine answeringSource (Canary.turn .listGroups 1).supply).1

theorem open_prepared {engine : Engine} (keyLength : engine.cipher.key.length = 32)
    {input : NewDataSource} (readable : Json.Value.ofBytes? input.data.bytes = some input.data)
    (supply : Supply) :
    engine.cipher.openConfig (Sources.prepare engine input supply).1.sealedData =
      .ok input.data :=
  CredentialCipher.openConfig_of_bytes (CredentialCipher.openBytes_sealBytes keyLength _ _) readable

/-- The connection is opened by the law of the cipher, which is not run for it. -/
theorem open_sealedSource :
    sealingEngine.cipher.openConfig sealedSource.sealedData = .ok .null := by
  have readable : Json.Value.ofBytes? Json.Value.null.bytes = some .null :=
    Json.Value.ofBytes_of_bytes trivial (by decide)
  exact open_prepared (List.length_replicate ..) readable _

theorem answered_pair {α β : Type} {result : α × β} {a : α} (answered : result.1 = a) :
    result = (a, result.2) := by
  rw [← answered]

theorem exists_loaded {answer : Except Error (Option MetricsGroup)} {p : MetricsGroup → Bool}
    (holds : answer.toOption.join.any p = true) : ∃ g, answer = .ok (some g) ∧ p g = true := by
  cases answer with
  | error fault => cases holds
  | ok found =>
      cases found with
      | none => cases holds
      | some g => exact ⟨g, rfl, holds⟩

def ofSource (g : MetricsGroup) : Bool :=
  g.metrics.all fun m => decide (m.dataSourceId = .ofNat 1)

def reportsWith (engine : Engine) (script : Script) (world : World σ)
    (test : MetricsGroup → GroupEvaluation → Bool) (g : MetricsGroup) : Bool :=
  ofSource g &&
    (decide (engine.settings.failurePolicy = .bestEffort) ||
      g.metrics.all fun m => (script.answerFor m).isOk) &&
    (track engine.settings.transitionPolicy (scriptedOutcomes script g) (.empty g.id)
      world).1.toOption.any (test g)

section

variable (engine : Engine) (script : Script) (start : σ)
  (cipher : engine.cipher = sealingEngine.cipher)
  (inTime : script.InTime engine.settings.metricTimeout) (kind : script.kind = "scripted")
  (found : Store.findDataSource (.ofNat 1) (Turn.run answeringTurns start) = .ok (some sealedSource))

include cipher inTime kind found

theorem scripted_canaries {g : MetricsGroup} (sources : ofSource g = true) :
    Scripted engine (scriptedWorld script start) g script where
  inTime
  source m member := by
    have named : m.dataSourceId = .ofNat 1 :=
      of_decide_eq_true (List.all_eq_true.mp sources m member)
    refine ⟨sealedSource, .null, ?_, ?_, ?_⟩
    · rw [named]
      exact found
    · have driver : (Driver.scripted script).kind = sealedSource.pluginSrc := kind
      rw [DriverRegistry.resolve_answer]
      exact (registerDriver_answer _ _).trans (if_pos driver)
    · rw [cipher]
      exact open_sealedSource

theorem exists_report {test : MetricsGroup → GroupEvaluation → Bool}
    (stored : ((Store.findMetricsGroup watchedGroup.id
      (scriptedWorld script start).store).toOption.join.any
        (reportsWith engine script (scriptedWorld script start) test)) = true) :
    ∃ g report after,
      Store.findMetricsGroup watchedGroup.id (scriptedWorld script start).store = .ok (some g) ∧
        evaluateWith engine watchedGroup.id unlimited (scriptedWorld script start) =
          (.ok report, after) ∧ test g report = true := by
  obtain ⟨g, loaded, holds⟩ := exists_loaded stored
  unfold reportsWith at holds
  simp only [Bool.and_eq_true, Bool.or_eq_true, decide_eq_true_eq] at holds
  obtain ⟨⟨sources, tolerated⟩, passes⟩ := holds
  have scripted := scripted_canaries engine script start cipher inTime kind found sources
  rw [← scripted.evaluateWith loaded tolerated] at passes
  rcases evaluated : evaluateWith engine watchedGroup.id unlimited (scriptedWorld script start) with
    ⟨answer, after⟩
  rw [evaluated] at passes
  cases answer with
  | error fault => cases passes
  | ok report => exact ⟨g, report, after, loaded, rfl, passes⟩

theorem exists_fault (strict : engine.settings.failurePolicy = .failFast)
    {test : MetricsGroup → Bool}
    (stored : ((Store.findMetricsGroup watchedGroup.id
      (scriptedWorld script start).store).toOption.join.any fun g =>
        ofSource g && !(g.metrics.all fun m => (script.answerFor m).isOk) && test g) = true) :
    ∃ g fault after,
      Store.findMetricsGroup watchedGroup.id (scriptedWorld script start).store = .ok (some g) ∧
        Scripted engine (scriptedWorld script start) g script ∧
        evaluateWith engine watchedGroup.id unlimited (scriptedWorld script start) =
          (.error fault, after) ∧ test g = true := by
  obtain ⟨g, loaded, holds⟩ := exists_loaded stored
  simp only [Bool.and_eq_true, Bool.not_eq_true'] at holds
  obtain ⟨⟨sources, lacks⟩, passes⟩ := holds
  have scripted := scripted_canaries engine script start cipher inTime kind found sources
  obtain ⟨fault, failed, -⟩ :=
    (evaluateWith_evaluates engine watchedGroup.id unlimited _).stopped loaded
      (scripted.stops strict lacks)
  exact ⟨g, fault, _, loaded, scripted, answered_pair failed, passes⟩

end

end Evaluation

end RolloutWatch

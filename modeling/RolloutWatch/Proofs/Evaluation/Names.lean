import RolloutWatch.Proofs.Evaluation.Independence
import RolloutWatch.Proofs.Service.Circles

/-!
The names that an evaluation gives to metrics: the keys of its report, and what its errors call a
metric. All of them are the result key of the metric, which is its own name, or else its nickname.
The nickname of a valid metric is never blank. Its own name may be: white space alone counts as a
name for the key, and as none for the check.

Main statement: `reported_under_names`.
-/

namespace RolloutWatch

namespace Error

/-- The metric that the error is about, if it is about a query. -/
def queried? : Error → Option String
  | .query name _ => some name
  | _ => none

end Error

namespace Metric

/-- The metric has no name of its own, or one that is not blank. -/
def Named (m : Metric) : Prop :=
  m.metric = "" ∨ Blank.isBlank m.metric = false

instance (m : Metric) : Decidable m.Named :=
  inferInstanceAs (Decidable (_ ∨ _))

theorem resultKey_not_blank_iff {m : Metric} (valid : m.violations.isEmpty = true) :
    Blank.isBlank m.resultKey = false ↔ m.Named := by
  rw [isEmpty_violations] at valid
  simp only [Bool.and_eq_true, Bool.not_eq_true'] at valid
  obtain ⟨⟨⟨⟨nickname, -⟩, -⟩, -⟩, -⟩ := valid
  unfold resultKey Named
  by_cases unnamed : m.metric = ""
  · rw [if_pos unnamed]
    exact iff_of_true nickname (.inl unnamed)
  · rw [if_neg unnamed]
    exact ⟨.inr, fun named => named.resolve_left unnamed⟩

end Metric

namespace GroupEvaluation

def keys (report : GroupEvaluation) : List String :=
  report.results.map Prod.fst ++ report.failures.map Prod.fst

end GroupEvaluation

/-! ### Errors of queries -/

namespace QueryPhase

theorem limited_error {limit : Elapsed} {m : Metric} {kind : String} {asking : Asking} {e : Error}
    (failed : (limited limit m kind asking).answer = .error e) :
    e.queried? = some m.resultKey := by
  obtain ⟨reached, delay, answer⟩ := asking
  cases answer with
  | ok value =>
      cases delay with
      | none => cases failed
      | some delay =>
          unfold limited at failed
          dsimp only at failed
          split at failed
          · cases failed
          · cases failed
            rfl
  | error fault =>
      cases delay with
      | none =>
          cases failed
          rfl
      | some delay =>
          unfold limited at failed
          dsimp only at failed
          split at failed
          · cases failed
            rfl
          · cases failed
            rfl

def Plain (findSource : EntityId → Except Error (Option DataSource)) : Prop :=
  ∀ id e, findSource id = .error e → e.queried? = none

theorem resolve_error {registry : DriverRegistry} {kind : String} {e : Error}
    (failed : (registry.resolve kind).1 = .error e) : e.queried? = none := by
  unfold DriverRegistry.resolve at failed
  split at failed
  · cases failed
  · split at failed
    · cases failed
      rfl
    · rename_i factory _
      unfold DriverRegistry.load at failed
      cases built : factory.outcome with
      | error fault =>
          rw [built] at failed
          cases failed
          rfl
      | ok driver =>
          rw [built] at failed
          cases failed

theorem openBytes_error {cipher : CredentialCipher} {text : String} {e : Error}
    (failed : cipher.openBytes text = .error e) : e.queried? = none := by
  unfold CredentialCipher.openBytes at failed
  split at failed
  · cases failed
    rfl
  · split at failed
    · cases failed
      rfl
    · split at failed
      · cases failed
        rfl
      · cases failed

theorem openConfig_error {cipher : CredentialCipher} {text : String} {e : Error}
    (failed : cipher.openConfig text = .error e) : e.queried? = none := by
  unfold CredentialCipher.openConfig at failed
  cases opened : cipher.openBytes text with
  | error fault =>
      rw [opened] at failed
      cases failed
      exact openBytes_error opened
  | ok document =>
      rw [opened] at failed
      simp only at failed
      split at failed
      · cases failed
      · cases failed
        rfl

theorem access_error {engine : Engine} {findSource : EntityId → Except Error (Option DataSource)}
    (plain : Plain findSource) {registry : DriverRegistry} {m : Metric} {e : Error}
    (failed : (access engine findSource registry m).1 = .error e) : e.queried? = none := by
  unfold access at failed
  cases found : findSource m.dataSourceId with
  | error fault =>
      rw [found] at failed
      cases failed
      exact plain _ _ found
  | ok answer =>
      rw [found] at failed
      cases answer with
      | none =>
          cases failed
          rfl
      | some source =>
          simp only at failed
          rcases resolved : registry.resolve source.pluginSrc with ⟨driver, after⟩
          rw [resolved] at failed
          cases driver with
          | error fault =>
              cases failed
              exact resolve_error (congrArg Prod.fst resolved)
          | ok driver =>
              simp only at failed
              cases opened : engine.cipher.openConfig source.sealedData with
              | error fault =>
                  rw [opened] at failed
                  cases failed
                  exact openConfig_error opened
              | ok config =>
                  rw [opened] at failed
                  cases failed

/-- The error that comes of a metric names this metric, if it names any. -/
theorem Frame.answer_error {frame : Frame} (plain : Plain frame.findSource)
    {registry : DriverRegistry} {entry : Nat × Metric} {e : Error}
    (failed : frame.answer registry entry = .error e) {name : String}
    (names : e.queried? = some name) : name = entry.2.resultKey := by
  unfold Frame.answer at failed
  rcases granted : access frame.engine frame.findSource registry entry.2 with ⟨answer, after⟩
  rw [granted] at failed
  cases answer with
  | error fault =>
      cases failed
      rw [access_error plain (congrArg Prod.fst granted)] at names
      cases names
  | ok access =>
      rw [limited_error failed] at names
      exact (Option.some.inj names).symm

end QueryPhase

namespace Evaluation

open QueryPhase

variable {σ : Type} [Store σ]

/-! ### Reports -/

section

variable {report : GroupEvaluation} {outcomes : List Outcome}

theorem mem_keys_iff
    (results : report.results = Keyed.collect Outcome.key Outcome.result? outcomes [])
    (failures : report.failures = Keyed.collect Outcome.key Outcome.fault? outcomes [])
    (key : String) : key ∈ report.keys ↔ key ∈ outcomes.map Outcome.key := by
  unfold GroupEvaluation.keys
  rw [List.mem_append, results, failures]
  constructor
  · exact fun member => member.elim collected_keys collected_keys
  · intro member
    obtain ⟨outcome, present, rfl⟩ := List.mem_map.mp member
    have entered {α : Type} {entry : Outcome → Option α} {value : α}
        (given : entry outcome = some value) :
        outcome.key ∈ (Keyed.collect Outcome.key entry outcomes []).map Prod.fst := by
      obtain ⟨other, found⟩ := Keyed.exists_get?_collect present given []
      by_contra absent
      rw [Keyed.get?_eq_none.mpr absent] at found
      cases found
    cases answered : outcome.answer with
    | ok result =>
        have given : outcome.result? = some result := by
          unfold Outcome.result?
          rw [answered]
        exact .inl (entered given)
    | error e =>
        have given : outcome.fault? = some e := by
          unfold Outcome.fault?
          rw [answered]
        exact .inr (entered given)

theorem mem_failures
    (failures : report.failures = Keyed.collect Outcome.key Outcome.fault? outcomes [])
    {key : String} {e : Error} (member : (key, e) ∈ report.failures) :
    ∃ outcome ∈ outcomes, outcome.key = key ∧ outcome.answer = .error e := by
  rw [failures] at member
  rcases Keyed.mem_collect member with impossible | ⟨outcome, present, named, fault⟩
  · exact absurd impossible List.not_mem_nil
  · refine ⟨outcome, present, named, ?_⟩
    unfold Outcome.fault? at fault
    cases answered : outcome.answer with
    | ok result =>
        rw [answered] at fault
        cases fault
    | error other =>
        rw [answered] at fault
        cases fault
        rfl

end

/-! ### Evaluations -/

/-- What an evaluation comes to. A report has its tables from the outcomes of the metrics, and an
error is that of a metric, or of no query at all. -/
theorem Evaluates.cases_of_recordable {ready : EntityId → σ → Prop}
    (recordable : Recordable ready) {engine : Engine}
    {ask : Nat → Driver → List UInt8 → List UInt8 → Asking} {groupId : EntityId}
    {limits : Limits} {world : World σ} {result : Except Error GroupEvaluation × World σ}
    {g : MetricsGroup} (evaluates : Evaluates engine ask groupId limits world result)
    (loaded : Store.findMetricsGroup groupId world.store = .ok (some g))
    (loads : (g.metrics.map Metric.id).Nodup ∧ ∀ m ∈ g.metrics, ready m.id world.store) :
    (∃ report, result.1 = .ok report ∧
        report.results =
          Keyed.collect Outcome.key Outcome.result? (outcomes engine ask world g) [] ∧
        report.failures =
          Keyed.collect Outcome.key Outcome.fault? (outcomes engine ask world g) []) ∨
      ∃ e, result.1 = .error e ∧ (e.queried? = none ∨ OfMetric engine ask world g e) := by
  rcases evaluates.cases_of_loaded loaded with ⟨e, failed, -, cause⟩ | ⟨-, answered, -⟩
  · refine .inr ⟨e, failed, ?_⟩
    rcases cause with interrupted | ⟨-, ofMetric⟩
    · refine .inl ?_
      cases interrupted <;> rfl
    · exact .inr ofMetric
  · obtain ⟨report, after, tracked⟩ := exists_trackAll recordable engine ask loads
    have same := congrArg Prod.fst tracked
    exact .inl ⟨report, answered.trans same, track_tables same⟩

structure NamesMetrics (g : MetricsGroup) (answer : Except Error GroupEvaluation) : Prop where
  keys : ∀ report, answer = .ok report → ∀ key,
    key ∈ report.keys ↔ ∃ m ∈ g.metrics, m.resultKey = key
  failures : ∀ report, answer = .ok report → ∀ key name cause,
    (key, .query name cause) ∈ report.failures → name = key
  errors : ∀ name cause, answer = .error (.query name cause) →
    ∃ m ∈ g.metrics, m.resultKey = name

theorem namesMetrics_of_recordable {ready : EntityId → σ → Prop} (recordable : Recordable ready)
    {engine : Engine} {ask : Nat → Driver → List UInt8 → List UInt8 → Asking}
    {groupId : EntityId} {limits : Limits} {world : World σ}
    {result : Except Error GroupEvaluation × World σ} {g : MetricsGroup}
    (plain : Plain fun id => Store.findDataSource id world.store)
    (evaluates : Evaluates engine ask groupId limits world result)
    (loaded : Store.findMetricsGroup groupId world.store = .ok (some g))
    (loads : (g.metrics.map Metric.id).Nodup ∧ ∀ m ∈ g.metrics, ready m.id world.store) :
    NamesMetrics g result.1 := by
  have metrics := outcomes_metrics engine ask world g
  have names : ∀ (entry : Nat × Metric) (e : Error),
      (frame engine ask unlimited world).answer world.registry entry = .error e →
      ∀ name, e.queried? = some name → name = entry.2.resultKey :=
    fun _ _ failed _ named => Frame.answer_error plain failed named
  have keyOfMetric : ∀ key, key ∈ (outcomes engine ask world g).map Outcome.key ↔
      ∃ m ∈ g.metrics, m.resultKey = key := by
    intro key
    rw [← metrics]
    simp only [List.mem_map, exists_exists_and_eq_and]
    rfl
  rcases evaluates.cases_of_recordable recordable loaded loads with
    ⟨report, answered, results, failures⟩ | ⟨e, failed, ofMetric⟩
  · rw [answered]
    refine { keys := ?_, failures := ?_, errors := nofun }
    · rintro _ ⟨⟩ key
      rw [mem_keys_iff results failures, keyOfMetric]
    · rintro _ ⟨⟩ key name cause member
      obtain ⟨outcome, present, rfl, fault⟩ := mem_failures failures member
      obtain ⟨entry, -, rfl⟩ := List.mem_map.mp present
      exact names entry _ fault name rfl
  · rw [failed]
    refine { keys := nofun, failures := nofun, errors := ?_ }
    rintro name cause same
    cases same
    rcases ofMetric with other | ⟨entry, member, fault⟩
    · cases other
    · refine ⟨entry.2, ?_, (names entry _ fault name rfl).symm⟩
      rw [← number_metrics 0 g.metrics]
      exact List.mem_map_of_mem member

end Evaluation

/-! ### Stores -/

theorem MemoryStore.plain (s : MemoryStore) :
    QueryPhase.Plain fun id => Store.findDataSource id s := by
  intro id e failed
  change s.whenOpen _ = .error e at failed
  unfold whenOpen at failed
  split at failed
  · cases failed
    rfl
  · cases failed

theorem RelationalStore.plain (s : RelationalStore) :
    QueryPhase.Plain fun id => Store.findDataSource id s := by
  intro id e failed
  change s.whenOpen _ = .error e at failed
  unfold whenOpen at failed
  split at failed
  · cases failed
    rfl
  · split at failed
    · cases failed
    · rename_i r _
      cases read : r.toSource with
      | ok source =>
          rw [read] at failed
          cases failed
      | error fault =>
          rw [read] at failed
          cases failed
          rfl

theorem RelationalStore.Reachable.orderly {s : RelationalStore} (reachable : Reachable s) :
    Orderly s := by
  induction reachable with
  | created => exact created_complete.toOrderly
  | next turn reachable ih => exact ih.next turn
  | reopened reachable ih => exact { keys := ih.keys, sound := ih.sound }

namespace Evaluation

open QueryPhase

variable {σ : Type} [Store σ]

/-- Every evaluation of a stored group names its metrics by their result keys. All keys of its
report can be read exactly if no metric has a name of white space, and then so can the names in
its errors. -/
def NamesReadably (engine : Engine) (ask : Nat → Driver → List UInt8 → List UInt8 → Asking)
    (groupId : EntityId) (limits : Limits) (world : World σ) : Prop :=
  ∀ (g : MetricsGroup) (result : Except Error GroupEvaluation × World σ),
    Store.findMetricsGroup groupId world.store = .ok (some g) →
    Evaluates engine ask groupId limits world result →
    NamesMetrics g result.1 ∧
      (∀ m ∈ g.metrics, Blank.isBlank m.resultKey = false ↔ m.Named) ∧
      (∀ report, result.1 = .ok report →
        ((∀ key ∈ report.keys, Blank.isBlank key = false) ↔ ∀ m ∈ g.metrics, m.Named)) ∧
      ((∀ m ∈ g.metrics, m.Named) → ∀ name cause,
        (result.1 = .error (.query name cause) ∨
          ∃ report key, result.1 = .ok report ∧ (key, .query name cause) ∈ report.failures) →
        Blank.isBlank name = false)

theorem NamesMetrics.readable {g : MetricsGroup} {answer : Except Error GroupEvaluation}
    (names : NamesMetrics g answer)
    (readable : ∀ m ∈ g.metrics, Blank.isBlank m.resultKey = false ↔ m.Named) :
    (∀ report, answer = .ok report →
      ((∀ key ∈ report.keys, Blank.isBlank key = false) ↔ ∀ m ∈ g.metrics, m.Named)) ∧
      ((∀ m ∈ g.metrics, m.Named) → ∀ name cause,
        (answer = .error (.query name cause) ∨
          ∃ report key, answer = .ok report ∧ (key, .query name cause) ∈ report.failures) →
        Blank.isBlank name = false) := by
  have keys : ∀ report, answer = .ok report →
      ((∀ key ∈ report.keys, Blank.isBlank key = false) ↔ ∀ m ∈ g.metrics, m.Named) := by
    intro report answered
    constructor
    · intro all m member
      exact (readable m member).mp (all _ ((names.keys report answered _).mpr ⟨m, member, rfl⟩))
    · intro named key present
      obtain ⟨m, member, rfl⟩ := (names.keys report answered key).mp present
      exact (readable m member).mpr (named m member)
  refine ⟨keys, fun named name cause raised => ?_⟩
  rcases raised with failed | ⟨report, key, answered, member⟩
  · obtain ⟨m, member, rfl⟩ := names.errors name cause failed
    exact (readable m member).mpr (named m member)
  · rw [names.failures report answered key name cause member]
    refine (keys report answered).mpr named key ?_
    exact List.mem_append_right _ (List.mem_map_of_mem member)

theorem namesReadably_of_recordable {ready : EntityId → σ → Prop} (recordable : Recordable ready)
    (engine : Engine) (ask : Nat → Driver → List UInt8 → List UInt8 → Asking) (groupId : EntityId)
    (limits : Limits) {world : World σ}
    (plain : Plain fun id => Store.findDataSource id world.store)
    (valid : Groups.PartsValid world.store)
    (loads : ∀ g, Store.findMetricsGroup groupId world.store = .ok (some g) →
      (g.metrics.map Metric.id).Nodup ∧ ∀ m ∈ g.metrics, ready m.id world.store) :
    NamesReadably engine ask groupId limits world := by
  intro g result loaded evaluates
  have names := namesMetrics_of_recordable recordable plain evaluates loaded (loads g loaded)
  obtain ⟨-, metrics, -⟩ := valid g (Groups.returned_of_read loaded)
  have readable : ∀ m ∈ g.metrics, Blank.isBlank m.resultKey = false ↔ m.Named :=
    fun m member => Metric.resultKey_not_blank_iff (metrics m member)
  exact ⟨names, readable, names.readable readable⟩

/-- In every state that the services lead a store to, evaluations name metrics by their result
keys, in whatever order the queries end. There are such evaluations, whatever the drivers do, and
the evaluation by the clock is one of them. -/
theorem reported_under_names (engine : Engine)
    (ask : Nat → Driver → List UInt8 → List UInt8 → Asking) (groupId : EntityId)
    (limits : Limits) :
    (∀ {σ : Type} [Store σ] (world : World σ), HasCourses engine groupId limits world) ∧
      (∀ (turns : List Turn) (world : World MemoryStore),
        world.store = Turn.run turns .empty → NamesReadably engine ask groupId limits world) ∧
      ∀ world : World RelationalStore, RelationalStore.Reachable world.store →
        NamesReadably engine ask groupId limits world := by
  refine ⟨fun world => hasCourses engine groupId limits world, ?_, ?_⟩
  · intro turns world reached
    have linked := MemoryStore.linked_of_run reached
    have valid : Groups.PartsValid world.store := by
      rw [reached]
      exact MemoryStore.run_partsValid turns
    exact namesReadably_of_recordable MemoryStore.recordable engine ask groupId limits
      world.store.plain valid fun g loaded => linked.loads loaded
  · intro world reachable
    exact namesReadably_of_recordable RelationalStore.recordable engine ask groupId limits
      world.store.plain reachable.orderly.partsValid
      fun g loaded => RelationalStore.loads reachable.uniqueKeys loaded

theorem answering_canaries_named :
    ∃ report after,
      evaluateWith sealingEngine watchedGroup.id unlimited
          (scriptedWorld fullScript MemoryStore.empty) = (.ok report, after) ∧
        "errors" ∈ report.keys ∧ "latency" ∈ report.keys ∧
        ∀ key ∈ report.keys, Blank.isBlank key = false := by
  obtain ⟨courses, inMemory, -⟩ := reported_under_names sealingEngine
    (fun _ => Driver.ask sealingEngine.network) watchedGroup.id unlimited
  obtain ⟨g, report, after, answers⟩ := memory_answers
  obtain ⟨names, nameable, readable, -⟩ := inMemory answeringTurns _
    (scriptedWorld_store fullScript _) g _ answers.loaded (courses _).clocked
  rw [answers.evaluated] at names readable
  have keys : ∀ key, key ∈ report.keys ↔ key ∈ ["errors", "latency"] := by
    intro key
    rw [names.keys report rfl, ← answers.keys, List.mem_map]
  have legible : ∀ key ∈ ["errors", "latency"], Blank.isBlank key = false := by decide +kernel
  have named : ∀ m ∈ g.metrics, m.Named := by
    intro m member
    refine (nameable m member).mp (legible m.resultKey ?_)
    rw [← answers.keys]
    exact List.mem_map_of_mem member
  exact ⟨report, after, answers.evaluated, (keys _).mpr (by decide), (keys _).mpr (by decide),
    (readable report rfl).mpr named⟩

/-! ### A canary whose name is white space -/

def unseenGroup : MetricsGroup :=
  { Canary.group with metrics := [{ Canary.metric 3 with metric := "  " }] }

def unseenWorld : World MemoryStore :=
  (Canary.turn .listGroups 0).world ((Canary.turn (.createGroup unseenGroup) 100).next .empty)

/-- The group is valid and is created, and what comes of its metric is reported under a blank
key. -/
theorem unseen_canary_not_named :
    unseenGroup.violations.isEmpty = true ∧
      (∃ g, Store.findMetricsGroup unseenGroup.id unseenWorld.store = .ok (some g) ∧
        g.metrics.map Metric.metric = ["  "]) ∧
      ∃ report after,
        evaluateWith lenientEngine unseenGroup.id unlimited unseenWorld = (.ok report, after) ∧
          ∃ key ∈ report.keys, Blank.isBlank key = true := by
  have valid : unseenGroup.violations.isEmpty = true := by decide +kernel
  have stored : ((Store.findMetricsGroup unseenGroup.id unseenWorld.store).toOption.join.any
      fun g => decide (g.metrics.map Metric.metric = ["  "])) = true := by decide +kernel
  have keys : (evaluateWith lenientEngine unseenGroup.id unlimited unseenWorld).1.map
      GroupEvaluation.keys = .ok ["  "] := by decide +kernel
  obtain ⟨g, loaded, named⟩ := exists_loaded stored
  refine ⟨valid, ⟨g, loaded, of_decide_eq_true named⟩, ?_⟩
  rcases evaluated : evaluateWith lenientEngine unseenGroup.id unlimited unseenWorld with
    ⟨answer, after⟩
  rw [evaluated] at keys
  cases answer with
  | error e => cases keys
  | ok report =>
      refine ⟨report, after, rfl, "  ", ?_, by decide⟩
      rw [Except.ok.inj keys]
      exact List.mem_singleton_self _

end Evaluation

end RolloutWatch

import RolloutWatch.Proofs.Evaluation.Scripted
import RolloutWatch.Proofs.Keyed
import RolloutWatch.Proofs.Memory.Recording
import Mathlib.Data.List.Perm.Subperm

/-!
What a successful evaluation reports. Its two tables are filled from the outcomes of the
metrics in the order of the group, so that a table has, under each key, what came last of the
metrics with this key. Metrics with keys of their own are each accounted for once.
-/

namespace RolloutWatch

namespace Outcome

def key (outcome : Outcome) : String :=
  outcome.metric.resultKey

def result? (outcome : Outcome) : Option Json.Value :=
  match outcome.answer with
  | .ok result => some result
  | .error _ => none

def fault? (outcome : Outcome) : Option Error :=
  match outcome.answer with
  | .ok _ => none
  | .error e => some e

theorem results_add_faults (outcomes : List Outcome) :
    (outcomes.filterMap result?).length + (outcomes.filterMap fault?).length =
      outcomes.length := by
  induction outcomes with
  | nil => rfl
  | cons outcome rest ih =>
      cases answered : outcome.answer with
      | ok result =>
          have given : outcome.result? = some result := by unfold result?; rw [answered]
          have absent : outcome.fault? = none := by unfold fault?; rw [answered]
          rw [List.filterMap_cons_some given, List.filterMap_cons_none absent, List.length_cons,
            List.length_cons]
          omega
      | error e =>
          have absent : outcome.result? = none := by unfold result?; rw [answered]
          have given : outcome.fault? = some e := by unfold fault?; rw [answered]
          rw [List.filterMap_cons_none absent, List.filterMap_cons_some given, List.length_cons,
            List.length_cons]
          omega

theorem result_or_fault (outcome : Outcome) : outcome.result? = none ∨ outcome.fault? = none := by
  unfold result? fault?
  cases outcome.answer with
  | ok result => exact .inr rfl
  | error e => exact .inl rfl

end Outcome

namespace Evaluation

variable {σ : Type} [Store σ]

theorem mention_groupId (report : GroupEvaluation) (outcome : Outcome) :
    (mention report outcome).groupId = report.groupId := by
  unfold mention
  cases outcome.answer <;> rfl

theorem mention_results (report : GroupEvaluation) (outcome : Outcome) :
    (mention report outcome).results =
      Keyed.enter outcome.key outcome.result? report.results := by
  unfold mention Outcome.result?
  cases outcome.answer <;> rfl

theorem mention_failures (report : GroupEvaluation) (outcome : Outcome) :
    (mention report outcome).failures =
      Keyed.enter outcome.key outcome.fault? report.failures := by
  unfold mention Outcome.fault?
  cases outcome.answer <;> rfl

theorem foldl_mention (report : GroupEvaluation) (outcomes : List Outcome) :
    (outcomes.foldl mention report).groupId = report.groupId ∧
      (outcomes.foldl mention report).results =
        Keyed.collect Outcome.key Outcome.result? outcomes report.results ∧
      (outcomes.foldl mention report).failures =
        Keyed.collect Outcome.key Outcome.fault? outcomes report.failures := by
  induction outcomes generalizing report with
  | nil => exact ⟨rfl, rfl, rfl⟩
  | cons outcome rest ih =>
      obtain ⟨group, results, failures⟩ := ih (mention report outcome)
      rw [mention_results] at results
      rw [mention_failures] at failures
      exact ⟨group.trans (mention_groupId report outcome), results, failures⟩

theorem track_tables {policy : TransitionPolicy} {outcomes : List Outcome} {groupId : EntityId}
    {world : World σ} {report : GroupEvaluation}
    (tracked : (track policy outcomes (.empty groupId) world).1 = .ok report) :
    report.results = Keyed.collect Outcome.key Outcome.result? outcomes [] ∧
      report.failures = Keyed.collect Outcome.key Outcome.fault? outcomes [] := by
  rw [track_apply] at tracked
  rcases recorded : recordAll policy (outcomes.filterMap Outcome.recording?) world with
    ⟨answer, after⟩
  rw [recorded] at tracked
  cases answer with
  | error fault => cases tracked
  | ok executions =>
      cases tracked
      exact (foldl_mention (.empty groupId) outcomes).2

/-- The tables of a report have an entry for each outcome, and no key is in both of them. -/
def Accounted (report : GroupEvaluation) (count : Nat) : Prop :=
  report.results.length + report.failures.length = count ∧
    ∀ key, Keyed.get? key report.results = none ∨ Keyed.get? key report.failures = none

section

variable {report : GroupEvaluation} {outcomes : List Outcome}

theorem collected_keys {α : Type} {entry : Outcome → Option α} {key : String}
    (member : key ∈ (Keyed.collect Outcome.key entry outcomes []).map Prod.fst) :
    key ∈ outcomes.map Outcome.key := by
  by_contra unknown
  have noEntry : outcomes.filterMap (Keyed.entryFor Outcome.key entry key) = [] := by
    rw [List.filterMap_eq_nil_iff]
    intro outcome present
    exact if_neg fun same => unknown (List.mem_map.mpr ⟨outcome, present, same⟩)
  refine Keyed.get?_eq_none.mp ?_ member
  rw [Keyed.get?_collect, noEntry]
  rfl

theorem accounted_of_nodup
    (results : report.results = Keyed.collect Outcome.key Outcome.result? outcomes [])
    (failures : report.failures = Keyed.collect Outcome.key Outcome.fault? outcomes [])
    (distinct : (outcomes.map Outcome.key).Nodup) : Accounted report outcomes.length := by
  constructor
  · have absent {α : Type} : ∀ outcome ∈ outcomes,
        Keyed.get? outcome.key ([] : List (String × α)) = none := fun _ _ => rfl
    rw [results, failures, Keyed.length_collect distinct absent,
      Keyed.length_collect distinct absent, List.length_nil, List.length_nil, Nat.zero_add,
      Nat.zero_add]
    exact Outcome.results_add_faults outcomes
  · intro key
    by_cases known : key ∈ outcomes.map Outcome.key
    · obtain ⟨outcome, member, rfl⟩ := List.mem_map.mp known
      rw [results, failures, Keyed.get?_collect_of_nodup distinct member,
        Keyed.get?_collect_of_nodup distinct member]
      exact outcome.result_or_fault
    · left
      rw [Keyed.get?_eq_none, results]
      exact fun member => known (collected_keys member)

/-- Tables without a common key have as many entries as outcomes only if no two outcomes share
a key, since all their keys are keys of outcomes. -/
theorem nodup_of_accounted
    (results : report.results = Keyed.collect Outcome.key Outcome.result? outcomes [])
    (failures : report.failures = Keyed.collect Outcome.key Outcome.fault? outcomes [])
    (accounted : Accounted report outcomes.length) : (outcomes.map Outcome.key).Nodup := by
  obtain ⟨count, disjoint⟩ := accounted
  have ascending {α : Type} : Keyed.Ascending ([] : List (String × α)) := List.Pairwise.nil
  have resultKeys : (report.results.map Prod.fst).Nodup := by
    rw [results]
    exact (ascending.collect _ _ _).nodup
  have failureKeys : (report.failures.map Prod.fst).Nodup := by
    rw [failures]
    exact (ascending.collect _ _ _).nodup
  have distinct : (report.results.map Prod.fst ++ report.failures.map Prod.fst).Nodup := by
    refine resultKeys.append failureKeys fun key inResults inFailures => ?_
    rcases disjoint key with absent | absent
    · exact Keyed.get?_eq_none.mp absent inResults
    · exact Keyed.get?_eq_none.mp absent inFailures
  have known : report.results.map Prod.fst ++ report.failures.map Prod.fst ⊆
      outcomes.map Outcome.key := by
    intro key member
    rcases List.mem_append.mp member with result | failure
    · rw [results] at result
      exact collected_keys result
    · rw [failures] at failure
      exact collected_keys failure
  have length : (outcomes.map Outcome.key).length =
      (report.results.map Prod.fst ++ report.failures.map Prod.fst).length := by
    rw [List.length_append, List.length_map, List.length_map, List.length_map, count]
  have all := (List.subperm_of_subset distinct known).perm_of_length_le (Nat.le_of_eq length)
  exact all.nodup_iff.mp distinct

end

/-- In every course that it may take, an evaluation that succeeds has an outcome for each metric,
which is what comes of this metric. Under a key its tables have the last result and the last fault
of the metrics with this key, and nothing else. The metrics are accounted for one by one exactly if
they have keys of their own, and then each has its own outcome under its key. -/
theorem outcomes_accounted_for (engine : Engine)
    (ask : Nat → Driver → List UInt8 → List UInt8 → Asking) (groupId : EntityId)
    (limits : QueryPhase.Limits) (world : World σ) :
    HasCourses engine groupId limits world ∧
      ∀ (result : Except Error GroupEvaluation × World σ) (report : GroupEvaluation),
        Evaluates engine ask groupId limits world result → result.1 = .ok report →
        ∃ g : MetricsGroup,
          Store.findMetricsGroup groupId world.store = .ok (some g) ∧
          (outcomes engine ask world g).map Outcome.metric = g.metrics ∧
          (∀ key, Keyed.get? key report.results =
            ((outcomes engine ask world g).filterMap
              (Keyed.entryFor Outcome.key Outcome.result? key)).getLast?) ∧
          (∀ key, Keyed.get? key report.failures =
            ((outcomes engine ask world g).filterMap
              (Keyed.entryFor Outcome.key Outcome.fault? key)).getLast?) ∧
          (Accounted report g.metrics.length ↔ (g.metrics.map Metric.resultKey).Nodup) ∧
          ((g.metrics.map Metric.resultKey).Nodup → ∀ outcome ∈ outcomes engine ask world g,
            Keyed.get? outcome.key report.results = outcome.result? ∧
              Keyed.get? outcome.key report.failures = outcome.fault?) := by
  refine ⟨hasCourses engine groupId limits world, fun result report evaluates succeeded => ?_⟩
  obtain ⟨g, loaded, -, tracked, -⟩ := evaluates.succeeded succeeded
  obtain ⟨results, failures⟩ := track_tables tracked
  have metrics := outcomes_metrics engine ask world g
  have keys : g.metrics.map Metric.resultKey =
      (outcomes engine ask world g).map Outcome.key := by
    rw [← metrics, List.map_map]
    rfl
  have count : g.metrics.length = (outcomes engine ask world g).length := by
    rw [← metrics, List.length_map]
  refine ⟨g, loaded, metrics, fun key => ?_, fun key => ?_, ?_, fun distinct outcome member => ?_⟩
  · rw [results, Keyed.get?_collect]
    exact Option.or_none
  · rw [failures, Keyed.get?_collect]
    exact Option.or_none
  · rw [keys, count]
    exact ⟨nodup_of_accounted results failures, accounted_of_nodup results failures⟩
  · rw [keys] at distinct
    rw [results, failures]
    exact ⟨Keyed.get?_collect_of_nodup distinct member,
      Keyed.get?_collect_of_nodup distinct member⟩

def lenientEngine : Engine :=
  sealingEngine.withPolicy .bestEffort

/-- The script has a reading for one of two canaries. Each is accounted for under its name. -/
theorem half_answered_canaries_accounted_for :
    ∃ report after,
      evaluateWith lenientEngine watchedGroup.id unlimited
          (scriptedWorld halfScript MemoryStore.empty) = (.ok report, after) ∧
        Accounted report 2 ∧ report.results.map Prod.fst = ["errors"] ∧
        report.failures.map Prod.fst = ["latency"] := by
  have stored : ((Store.findMetricsGroup watchedGroup.id
      (scriptedWorld halfScript MemoryStore.empty).store).toOption.join.any
        (reportsWith lenientEngine halfScript (scriptedWorld halfScript MemoryStore.empty)
          fun g report =>
            decide (g.metrics.map Metric.resultKey = ["errors", "latency"] ∧
              report.results.map Prod.fst = ["errors"] ∧
              report.failures.map Prod.fst = ["latency"]))) = true := by
    decide +kernel
  obtain ⟨g, report, after, loaded, evaluated, holds⟩ :=
    exists_report lenientEngine halfScript MemoryStore.empty rfl (halfScript_inTime _) rfl rfl
      stored
  obtain ⟨keys, results, failures⟩ := of_decide_eq_true holds
  obtain ⟨courses, accounts⟩ := outcomes_accounted_for lenientEngine
    (fun _ => Driver.ask lenientEngine.network) watchedGroup.id unlimited
    (scriptedWorld halfScript MemoryStore.empty)
  have course := courses.clocked
  rw [evaluated] at course
  obtain ⟨h, again, -, -, -, accounted, -⟩ := accounts _ report course rfl
  have same : h = g := Option.some.inj (Except.ok.inj (again.symm.trans loaded))
  rw [same, keys] at accounted
  have count : g.metrics.length = 2 := by
    rw [← List.length_map (f := Metric.resultKey), keys]
    rfl
  rw [count] at accounted
  exact ⟨report, after, evaluated, accounted.mpr (by decide), results, failures⟩

/-! ### Canaries of one name -/

def canaries (count : Nat) : World MemoryStore :=
  (Canary.turn .listGroups 0).world
    ((Canary.turn (.createGroup
      { Canary.group with metrics := List.replicate count (Canary.metric 3) }) 100).next .empty)

/-- Two canaries of one name are evaluated, and the report has room for one of them only. -/
theorem twin_canaries_not_accounted_for :
    ∃ g report after,
      Store.findMetricsGroup Canary.group.id (canaries 2).store = .ok (some g) ∧
        evaluateWith lenientEngine Canary.group.id unlimited (canaries 2) = (.ok report, after) ∧
        ¬Accounted report g.metrics.length := by
  have twins : ((Store.findMetricsGroup Canary.group.id (canaries 2).store).toOption.join.any
      fun g => decide ¬(g.metrics.map Metric.resultKey).Nodup) = true := by
    decide +kernel
  obtain ⟨g, loaded, holds⟩ := exists_loaded twins
  have linked : MemoryStore.Linked (canaries 2).store :=
    MemoryStore.empty_owned.toLinked.change (Turn.change _ _)
  obtain ⟨report, after, tracked⟩ := exists_trackAll MemoryStore.recordable lenientEngine
    (fun _ => Driver.ask lenientEngine.network) (linked.loads loaded)
  have lenient : ¬Stops lenientEngine (fun _ => Driver.ask lenientEngine.network) (canaries 2) g :=
    fun stops => by cases stops.1
  have answered := ((evaluateWith_evaluates lenientEngine Canary.group.id unlimited
    (canaries 2)).tracked loaded lenient).1
  have same := congrArg Prod.fst tracked
  refine ⟨g, report, _, loaded, answered_pair (answered.trans same), fun accounted => ?_⟩
  obtain ⟨results, failures⟩ := track_tables same
  have metrics := outcomes_metrics lenientEngine (fun _ => Driver.ask lenientEngine.network)
    (canaries 2) g
  rw [← metrics, List.length_map] at accounted
  have distinct := nodup_of_accounted results failures accounted
  refine of_decide_eq_true holds ?_
  rw [← metrics, List.map_map]
  exact distinct

end Evaluation

end RolloutWatch

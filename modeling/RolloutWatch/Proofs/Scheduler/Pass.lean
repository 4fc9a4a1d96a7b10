import RolloutWatch.Engine.Scheduler
import RolloutWatch.Proofs.Evaluation.Effect
import RolloutWatch.Proofs.Evaluation.Loaded
import Mathlib.Data.List.Perm.Basic

/-!
A pass over some groups. Each group is asked for what it would be asked for at the start of the
pass, since the evaluations before it leave the sources, the drivers and its own executions as they
are. So the pass adds up: the store takes the readings of one group after the other, and these are
the readings that each group has at the start.
-/

namespace RolloutWatch.Scheduler

open Evaluation

variable {σ : Type} [Store σ]

def limits (engine : Engine) : QueryPhase.Limits :=
  { cancelAfter := none, deadline := engine.settings.groupDeadline }

def answer (engine : Engine) (world : World σ) (g : MetricsGroup) :
    Except Error (List Outcome) :=
  (queryAll engine (limits engine) g.metrics world).1

/-- The readings that an evaluation of a group keeps in a world. -/
def readings (engine : Engine) (world : World σ) (g : MetricsGroup) : List Recording :=
  match answer engine world g with
  | .error _ => []
  | .ok outcomes => outcomes.filterMap Outcome.recording?

def report (engine : Engine) (world : World σ) (g : MetricsGroup) :
    Except Error GroupEvaluation :=
  (answer engine world g).map fun outcomes =>
    { outcomes.foldl mention (.empty g.id) with
      executions := (outcomes.filterMap Outcome.recording?).map
        (Recording.written engine.settings.transitionPolicy) }

def completes : Except Error GroupEvaluation → Bool
  | .ok report => report.isComplete
  | .error _ => false

/-- What a store does with readings of metrics that it holds. -/
structure KeepsReadings (holds : Metric → σ → Prop)
    (take : TransitionPolicy → Recording → σ → σ) (s : σ) : Prop where
  takes : ∀ policy, TakesReadings policy holds (take policy)
  answers : ∀ (policy : TransitionPolicy) (rs : List Recording),
    (rs.map fun r => r.metric.id).Nodup →
    (∀ r ∈ rs, holds r.metric s ∧ r.value.isFinite = true) →
    AnswersThrough (Recording.applyAll policy rs) s (rs.foldl (fun s r => take policy r s) s)
  named : ∀ id e, Store.findMetricExecution id s = .ok (some e) → e.metricId = id
  commute : ∀ (policy : TransitionPolicy) (r q : Recording), r.metric.id ≠ q.metric.id →
    ∀ t, take policy r (take policy q t) = take policy q (take policy r t)

/-- Readings that have been kept and groups that are still to be evaluated. All their metrics are
different ones and were held by the store at the start. -/
structure Pending (holds : Metric → σ → Prop) (s : σ) (rs : List Recording)
    (gs : List MetricsGroup) : Prop where
  kept : ∀ r ∈ rs, holds r.metric s ∧ r.value.isFinite = true
  loaded : ∀ g ∈ gs, Store.findMetricsGroup g.id s = .ok (some g)
  held : ∀ g ∈ gs, ∀ m ∈ g.metrics, holds m s ∧ m.execution.metricId = m.id
  distinct : ((rs.map Recording.metric ++ gs.flatMap MetricsGroup.metrics).map Metric.id).Nodup

/-- The world is another one after some readings. -/
structure After (take : TransitionPolicy → Recording → σ → σ) (engine : Engine)
    (start : World σ) (rs : List Recording) (world : World σ) : Prop where
  store : world.store =
    rs.foldl (fun s r => take engine.settings.transitionPolicy r s) start.store
  answers : world.registry.answer = start.registry.answer

section

variable {holds : Metric → σ → Prop} {take : TransitionPolicy → Recording → σ → σ} {s : σ}
  {engine : Engine} {start world : World σ} {rs : List Recording} {g : MetricsGroup}
  {gs : List MetricsGroup}

theorem distinct_of_apart (ids : (gs.map MetricsGroup.id).Nodup)
    (each : ∀ g ∈ gs, (g.metrics.map Metric.id).Nodup)
    (apart : ∀ g ∈ gs, ∀ h ∈ gs, ∀ m ∈ g.metrics, ∀ n ∈ h.metrics, m.id = n.id → g.id = h.id) :
    ((gs.flatMap MetricsGroup.metrics).map Metric.id).Nodup := by
  rw [List.map_flatMap, List.nodup_flatMap]
  refine ⟨each, (List.pairwise_map.mp ids).imp_of_mem ?_⟩
  intro g h here there differs id own other
  obtain ⟨m, inOwn, same⟩ := List.mem_map.mp own
  obtain ⟨n, inOther, equal⟩ := List.mem_map.mp other
  exact differs (apart g here h there m inOwn n inOther (same.trans equal.symm))

theorem readings_of_error {fault : Error} (answered : answer engine world g = .error fault) :
    readings engine world g = [] := by
  unfold readings
  rw [answered]

theorem readings_of_ok {outcomes : List Outcome} (answered : answer engine world g = .ok outcomes) :
    readings engine world g = outcomes.filterMap Outcome.recording? := by
  unfold readings
  rw [answered]

theorem readings_sublist (engine : Engine) (world : World σ) (g : MetricsGroup) :
    ((readings engine world g).map Recording.metric).Sublist g.metrics := by
  cases answered : answer engine world g with
  | error fault =>
      rw [readings_of_error answered]
      exact List.nil_sublist _
  | ok outcomes =>
      rw [readings_of_ok answered]
      exact queryAll_metrics (Prod.ext answered rfl) ▸ recordings_sublist outcomes

theorem readings_finite {r : Recording} (member : r ∈ readings engine world g) :
    r.value.isFinite = true := by
  cases answered : answer engine world g with
  | error fault =>
      rw [readings_of_error answered] at member
      cases member
  | ok outcomes =>
      rw [readings_of_ok answered] at member
      obtain ⟨outcome, -, reading⟩ := List.mem_filterMap.mp member
      exact Outcome.recording_finite reading

theorem Pending.distinct_readings (pending : Pending holds s rs gs) :
    (rs.map fun r => r.metric.id).Nodup := by
  have ids := pending.distinct.sublist ((List.sublist_append_left _ _).map Metric.id)
  rw [List.map_map] at ids
  exact ids

/-- A metric of a group that is still to be evaluated has no reading yet. -/
theorem Pending.unread (pending : Pending holds s rs gs) (member : g ∈ gs) {m : Metric}
    (own : m ∈ g.metrics) : m.id ∉ rs.map fun r => r.metric.id := by
  have ids := pending.distinct
  rw [List.map_append, List.map_map] at ids
  intro read
  exact List.disjoint_of_nodup_append ids read
    (List.mem_map_of_mem (List.mem_flatMap.mpr ⟨g, member, own⟩))

theorem Pending.distinct_metrics (pending : Pending holds s rs gs) (member : g ∈ gs) :
    (g.metrics.map Metric.id).Nodup := by
  refine pending.distinct.sublist (List.Sublist.map Metric.id ?_)
  refine List.Sublist.trans ?_ (List.sublist_append_right _ _)
  exact List.sublist_flatten_of_mem (List.mem_map_of_mem member)

/-- The first group's readings join those that have been kept. -/
theorem Pending.next (pending : Pending holds start.store rs (g :: gs)) (engine : Engine) :
    Pending holds start.store (rs ++ readings engine start g) gs := by
  obtain ⟨-, loadedLater⟩ := List.forall_mem_cons.mp pending.loaded
  obtain ⟨heldHere, heldLater⟩ := List.forall_mem_cons.mp pending.held
  have sublist := readings_sublist engine start g
  refine { kept := ?_, loaded := loadedLater, held := heldLater, distinct := ?_ }
  · refine List.forall_mem_append.mpr ⟨pending.kept, fun r member => ?_⟩
    exact ⟨(heldHere _ (sublist.subset (List.mem_map_of_mem member))).1, readings_finite member⟩
  · refine pending.distinct.sublist (List.Sublist.map Metric.id ?_)
    rw [List.map_append, List.append_assoc, List.flatMap_cons]
    exact (List.Sublist.refl _).append (sublist.append (List.Sublist.refl _))

theorem Pending.all (pending : Pending holds start.store rs gs) (engine : Engine) :
    Pending holds start.store (rs ++ gs.flatMap (readings engine start)) [] := by
  induction gs generalizing rs with
  | nil =>
      rw [List.flatMap_nil, List.append_nil]
      exact pending
  | cons g rest ih =>
      rw [List.flatMap_cons, ← List.append_assoc]
      exact ih (pending.next engine)

theorem Pending.of_mem (pending : Pending holds s [] gs) (member : g ∈ gs) :
    Pending holds s [] [g] := by
  refine
    { kept := pending.kept
      loaded := List.forall_mem_singleton.mpr (pending.loaded g member)
      held := List.forall_mem_singleton.mpr (pending.held g member)
      distinct := pending.distinct.sublist (List.Sublist.map Metric.id ?_) }
  rw [List.flatMap_singleton]
  exact List.sublist_flatten_of_mem (List.mem_map_of_mem member)

theorem Pending.perm (pending : Pending holds s [] gs) {order : List MetricsGroup}
    (perm : order.Perm gs) : Pending holds s [] order where
  kept := pending.kept
  loaded := fun g member => pending.loaded g (perm.subset member)
  held := fun g member => pending.held g (perm.subset member)
  distinct :=
    ((perm.flatMap_right MetricsGroup.metrics).map Metric.id).nodup_iff.mpr pending.distinct

theorem Pending.loaded_after (pending : Pending holds start.store rs gs)
    (laws : KeepsReadings holds take start.store) (after : After take engine start rs world)
    (member : g ∈ gs) : Store.findMetricsGroup g.id world.store = .ok (some g) := by
  have answers := laws.answers engine.settings.transitionPolicy rs pending.distinct_readings
    pending.kept
  rw [after.store, answers.group, pending.loaded g member]
  have metrics : g.metrics.map (Metric.mapExecution
      (Recording.applyAll engine.settings.transitionPolicy rs)) = g.metrics := by
    refine (List.map_congr_left fun m own => ?_).trans (List.map_id _)
    have unread := pending.unread member own
    rw [← (pending.held g member m own).2] at unread
    have same : Recording.applyAll engine.settings.transitionPolicy rs m.execution = m.execution :=
      Store.changeFor_of_absent unread
    exact congrArg (fun execution => { m with execution }) same
  exact congrArg (fun metrics => Except.ok (some { g with metrics })) metrics

/-- A store goes on holding the metrics that have no reading yet. -/
theorem held_after {policy : TransitionPolicy} {take : Recording → σ → σ}
    (takes : TakesReadings policy holds take) {rs : List Recording} {s : σ}
    (kept : ∀ r ∈ rs, holds r.metric s) (distinct : (rs.map fun r => r.metric.id).Nodup)
    {m : Metric} (held : holds m s) (unread : m.id ∉ rs.map fun r => r.metric.id) :
    holds m (rs.foldl (fun s r => take r s) s) := by
  induction rs generalizing s with
  | nil => exact held
  | cons r rest ih =>
      obtain ⟨here, later⟩ := List.forall_mem_cons.mp kept
      obtain ⟨absent, restDistinct⟩ := List.nodup_cons.mp distinct
      obtain ⟨differs, unreadLater⟩ := not_or.mp (mt List.mem_cons.mpr unread)
      refine ih (fun other member => ?_) restDistinct (takes.others r m s here held differs)
        unreadLater
      refine takes.others r other.metric s here (later other member) fun same => absent ?_
      exact List.mem_map.mpr ⟨other, member, same⟩

/-- An evaluation of a group that has no reading yet answers what it would have answered at the
start, and keeps the readings that it would have kept. -/
theorem evaluate_next (pending : Pending holds start.store rs gs)
    (laws : KeepsReadings holds take start.store) (after : After take engine start rs world)
    (member : g ∈ gs) :
    ∃ final, evaluateWith engine g.id (limits engine) world = (report engine start g, final) ∧
      After take engine start (rs ++ readings engine start g) final := by
  have distinct := pending.distinct_readings
  have sources := (laws.answers engine.settings.transitionPolicy rs distinct pending.kept).source
  have resembles : Resembles world start :=
    { sources := fun id => by rw [after.store, sources], answers := after.answers }
  have same := resembles.queryAll engine (limits engine) g.metrics
  have answers := (queryAll_answers engine (limits engine) g.metrics world).trans after.answers
  have unchanged := queryAll_store engine (limits engine) g.metrics world
  rw [evaluateWith_apply, pending.loaded_after laws after member]
  simp only
  rcases asking : queryAll engine (limits engine) g.metrics world with ⟨outcomes, asked⟩
  rw [asking] at same answers unchanged
  have answered : answer engine start g = outcomes := same.symm
  unfold report
  rw [answered]
  cases outcomes with
  | error fault =>
      refine ⟨asked, rfl, ?_, answers⟩
      rw [readings_of_error answered, List.append_nil]
      exact unchanged.trans after.store
  | ok outcomes =>
      have sublist := readings_sublist engine start g
      have held : ∀ r ∈ readings engine start g, holds r.metric asked.store := by
        intro r reading
        have own := sublist.subset (List.mem_map_of_mem reading)
        rw [unchanged, after.store]
        exact held_after (laws.takes _) (fun r member => (pending.kept r member).1) distinct
          (pending.held g member _ own).1 (pending.unread member own)
      have ids := (pending.distinct_metrics member).sublist (sublist.map Metric.id)
      rw [List.map_map] at ids
      have all := recordAll_takes (laws.takes engine.settings.transitionPolicy) asked ids held
      rw [readings_of_ok answered] at all ⊢
      simp only [track_apply, all]
      refine ⟨_, rfl, ?_, answers⟩
      rw [List.foldl_append, ← after.store, ← unchanged]

theorem pass_apply (engine : Engine) (cancelAt : Option Nat) (world : World σ) :
    pass engine cancelAt world =
      match Store.listMetricsGroups world.store with
      | .error e => (.error e, world)
      | .ok groups =>
          (.ok (visit engine cancelAt groups { evaluated := 0, failed := 0 } world).1,
            (visit engine cancelAt groups { evaluated := 0, failed := 0 } world).2) := by
  unfold pass Groups.findAll
  rw [Action.bind_read]
  cases Store.listMetricsGroups world.store <;> rfl

theorem visit_cons (engine : Engine) (g : MetricsGroup) (rest : List MetricsGroup)
    (summary : PassSummary) (world : World σ) :
    visit engine none (g :: rest) summary world =
      visit engine none rest (count summary (evaluateWith engine g.id (limits engine) world).1)
        (evaluateWith engine g.id (limits engine) world).2 :=
  rfl

/-- A pass that is not cancelled adds up what the groups come to at the start. -/
theorem visit_apply (pending : Pending holds start.store rs gs)
    (laws : KeepsReadings holds take start.store) (after : After take engine start rs world)
    (summary : PassSummary) :
    ∃ final, visit engine none gs summary world =
        (gs.foldl (fun summary g => count summary (report engine start g)) summary, final) ∧
      After take engine start (rs ++ gs.flatMap (readings engine start)) final := by
  induction gs generalizing rs world summary with
  | nil =>
      rw [List.flatMap_nil, List.append_nil]
      exact ⟨world, rfl, after⟩
  | cons g rest ih =>
      obtain ⟨between, evaluated, next⟩ := evaluate_next pending laws after List.mem_cons_self
      rw [visit_cons, evaluated, List.flatMap_cons, ← List.append_assoc]
      exact ih (pending.next engine) next _

/-- The summary counts the answers, those with failures among the results twice. -/
theorem count_foldl (answers : MetricsGroup → Except Error GroupEvaluation)
    (gs : List MetricsGroup) (summary : PassSummary) :
    gs.foldl (fun summary g => count summary (answers g)) summary =
      { evaluated := summary.evaluated + gs.countP fun g => (answers g).isOk
        failed := summary.failed + gs.countP fun g => !completes (answers g) } := by
  induction gs generalizing summary with
  | nil => rfl
  | cons g rest ih =>
      rw [List.foldl_cons, ih, List.countP_cons, List.countP_cons, PassSummary.mk.injEq]
      unfold count
      cases answers g with
      | error fault =>
          simp only [Except.isOk, Except.toBool, completes, Bool.not_false, if_true,
            Bool.false_eq_true, if_false]
          omega
      | ok report =>
          cases complete : report.isComplete with
          | true =>
              simp only [Except.isOk, Except.toBool, completes, complete, Bool.not_true, if_true,
                Bool.false_eq_true, if_false]
              omega
          | false =>
              simp only [Except.isOk, Except.toBool, completes, complete, Bool.not_false, if_true,
                Bool.false_eq_true, if_false]
              omega

end

end RolloutWatch.Scheduler

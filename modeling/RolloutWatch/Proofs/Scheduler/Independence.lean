import RolloutWatch.Proofs.Evaluation.Untouched
import RolloutWatch.Proofs.Memory.Pass
import RolloutWatch.Proofs.Relational.Pass

/-!
A pass is the evaluation of each group by itself. What the pass counts are the answers of these
evaluations, every group comes out of it as it comes out of its own, and the groups may be visited
in any order.
-/

namespace RolloutWatch

namespace Recording

theorem applyAll_append_of_absent (policy : TransitionPolicy) (rs : List Recording)
    {others : List Recording} {e : MetricExecution}
    (absent : e.metricId ∉ others.map fun r => r.metric.id) :
    applyAll policy (rs ++ others) e = applyAll policy rs e := by
  have none : others.find? (fun r => r.metric.id = e.metricId) = none := by
    rw [List.find?_eq_none]
    intro r member same
    exact absent (List.mem_map.mpr ⟨r, member, of_decide_eq_true same⟩)
  unfold applyAll Store.changeFor
  rw [List.find?_append, none, Option.or_none]

end Recording

namespace Scheduler

open Evaluation

variable {σ : Type} [Store σ]

/-- What a pass that is not cancelled comes to, measured by the evaluations of the groups in the
world in which it starts. -/
structure PassOf (engine : Engine) (start : World σ) (gs : List MetricsGroup)
    (summary : PassSummary) (final : World σ) : Prop where
  listed : Store.listMetricsGroups start.store = .ok gs
  passed : pass engine none start = (.ok summary, final)
  evaluated : summary.evaluated = gs.countP fun g => (evaluate engine g.id start).1.isOk
  failed : summary.failed = gs.countP fun g => !completes (evaluate engine g.id start).1
  groups : ∀ g ∈ gs, Store.findMetricsGroup g.id final.store =
    Store.findMetricsGroup g.id (evaluate engine g.id start).2.store
  executions : ∀ g ∈ gs, ∀ m ∈ g.metrics, Store.findMetricExecution m.id final.store =
    Store.findMetricExecution m.id (evaluate engine g.id start).2.store
  reordered : ∀ order : List MetricsGroup, order.Perm gs →
    ∃ last, visit engine none order { evaluated := 0, failed := 0 } start = (summary, last) ∧
      last.store = final.store

section

variable {holds : Metric → σ → Prop} {take : TransitionPolicy → Recording → σ → σ} {s : σ}
  {engine : Engine} {start : World σ} {rs others : List Recording} {g : MetricsGroup}
  {gs rest : List MetricsGroup}

theorem foldl_perm (laws : KeepsReadings holds take s) (policy : TransitionPolicy)
    (perm : rs.Perm others) (distinct : (rs.map fun r => r.metric.id).Nodup) (t : σ) :
    rs.foldl (fun s r => take policy r s) t = others.foldl (fun s r => take policy r s) t := by
  refine perm.foldl_eq' (fun r member q other s => ?_) t
  by_cases same : r.metric.id = q.metric.id
  · rw [List.inj_on_of_nodup_map distinct member other same]
  · exact laws.commute policy q r (fun equal => same equal.symm) s

/-- The readings of the other groups are of other metrics. -/
theorem Pending.apart (pending : Pending holds start.store [] (g :: rest)) {m : Metric}
    (own : m ∈ g.metrics) :
    m.id ∉ (rest.flatMap (readings engine start)).map fun r => r.metric.id := by
  have ids := pending.distinct
  rw [List.map_nil, List.nil_append, List.flatMap_cons, List.map_append] at ids
  intro read
  obtain ⟨r, reading, same⟩ := List.mem_map.mp read
  obtain ⟨h, later, kept⟩ := List.mem_flatMap.mp reading
  have ofOther := (readings_sublist engine start h).subset (List.mem_map_of_mem kept)
  apply List.disjoint_of_nodup_append ids (List.mem_map_of_mem own)
  rw [← same]
  exact List.mem_map_of_mem (List.mem_flatMap.mpr ⟨h, later, ofOther⟩)

/-- A group comes out of all the evaluations as it comes out of its own. -/
theorem alone (laws : KeepsReadings holds take start.store)
    (pending : Pending holds start.store [] (g :: rest)) {final own : World σ}
    (all : After take engine start ((g :: rest).flatMap (readings engine start)) final)
    (single : After take engine start (readings engine start g) own) :
    Store.findMetricsGroup g.id final.store = Store.findMetricsGroup g.id own.store ∧
      ∀ m ∈ g.metrics, Store.findMetricExecution m.id final.store =
        Store.findMetricExecution m.id own.store := by
  have readyAll := pending.all engine
  have readyOwn := (pending.of_mem List.mem_cons_self).all engine
  rw [List.nil_append, List.flatMap_singleton] at readyOwn
  rw [List.nil_append] at readyAll
  have through := laws.answers engine.settings.transitionPolicy _ readyAll.distinct_readings
    readyAll.kept
  have throughOwn := laws.answers engine.settings.transitionPolicy _ readyOwn.distinct_readings
    readyOwn.kept
  rw [← all.store] at through
  rw [← single.store] at throughOwn
  have same {m : Metric} (own : m ∈ g.metrics) {e : MetricExecution} (names : e.metricId = m.id) :
      Recording.applyAll engine.settings.transitionPolicy
          ((g :: rest).flatMap (readings engine start)) e =
        Recording.applyAll engine.settings.transitionPolicy (readings engine start g) e := by
    rw [List.flatMap_cons]
    apply Recording.applyAll_append_of_absent
    rw [names]
    exact pending.apart own
  constructor
  · rw [through.group, throughOwn.group, pending.loaded g List.mem_cons_self]
    refine congrArg (fun metrics => Except.ok (some { g with metrics })) ?_
    refine List.map_congr_left fun m own => ?_
    exact congrArg (fun execution => { m with execution })
      (same own (pending.held g List.mem_cons_self m own).2)
  · intro m own
    rw [through.execution, throughOwn.execution]
    cases found : Store.findMetricExecution m.id start.store with
    | error fault => rfl
    | ok answer =>
        cases answer with
        | none => rfl
        | some e => exact congrArg (fun e => Except.ok (some e)) (same own (laws.named _ e found))

def summaryOf (engine : Engine) (start : World σ) (gs : List MetricsGroup) : PassSummary :=
  { evaluated := gs.countP fun g => (report engine start g).isOk
    failed := gs.countP fun g => !completes (report engine start g) }

theorem summaryOf_perm {order : List MetricsGroup} (perm : order.Perm gs) :
    summaryOf engine start order = summaryOf engine start gs := by
  unfold summaryOf
  rw [perm.countP_eq, perm.countP_eq]

theorem visit_all (laws : KeepsReadings holds take start.store)
    (pending : Pending holds start.store [] gs) (engine : Engine) :
    ∃ final, visit engine none gs { evaluated := 0, failed := 0 } start =
        (summaryOf engine start gs, final) ∧
      After take engine start (gs.flatMap (readings engine start)) final := by
  obtain ⟨final, visited, after⟩ :=
    visit_apply pending laws ⟨rfl, rfl⟩ { evaluated := 0, failed := 0 }
  rw [count_foldl, Nat.zero_add, Nat.zero_add] at visited
  exact ⟨final, visited, after⟩

theorem evaluate_alone (laws : KeepsReadings holds take start.store)
    (pending : Pending holds start.store [] gs) (engine : Engine) (member : g ∈ gs) :
    ∃ own, evaluate engine g.id start = (report engine start g, own) ∧
      After take engine start (readings engine start g) own :=
  evaluate_next pending laws ⟨rfl, rfl⟩ member

/-- In a store that holds the metrics of its groups a pass is the evaluation of each group by
itself. -/
theorem exists_passOf (laws : KeepsReadings holds take start.store)
    (listed : Store.listMetricsGroups start.store = .ok gs)
    (pending : Pending holds start.store [] gs) (engine : Engine) :
    ∃ summary final, PassOf engine start gs summary final := by
  obtain ⟨final, visited, all⟩ := visit_all laws pending engine
  have answers : ∀ g ∈ gs, report engine start g = (evaluate engine g.id start).1 := by
    intro g member
    obtain ⟨own, evaluated, -⟩ := evaluate_alone laws pending engine member
    rw [evaluated]
  -- A group may be taken as the first one, since the order does not matter.
  have same : ∀ g ∈ gs,
      Store.findMetricsGroup g.id final.store =
          Store.findMetricsGroup g.id (evaluate engine g.id start).2.store ∧
        ∀ m ∈ g.metrics, Store.findMetricExecution m.id final.store =
          Store.findMetricExecution m.id (evaluate engine g.id start).2.store := by
    intro g member
    obtain ⟨own, evaluated, single⟩ := evaluate_alone laws pending engine member
    obtain ⟨front, back, split⟩ := List.append_of_mem member
    have perm : (g :: (front ++ back)).Perm gs := split ▸ List.perm_middle.symm
    have first : After take engine start
        ((g :: (front ++ back)).flatMap (readings engine start)) final := by
      refine ⟨all.store.trans ?_, all.answers⟩
      exact foldl_perm laws _ (perm.symm.flatMap_right _) (pending.all engine).distinct_readings _
    rw [evaluated]
    exact alone laws (pending.perm perm) first single
  refine ⟨summaryOf engine start gs, final,
    { listed
      passed := ?_
      evaluated := List.countP_congr fun g member => by rw [answers g member]
      failed := List.countP_congr fun g member => by rw [answers g member]
      groups := fun g member => (same g member).1
      executions := fun g member => (same g member).2
      reordered := fun order perm => ?_ }⟩
  · rw [pass_apply, listed]
    simp only [visited]
  · obtain ⟨last, visitedLast, allLast⟩ := visit_all laws (pending.perm perm) engine
    rw [summaryOf_perm perm] at visitedLast
    refine ⟨last, visitedLast, allLast.store.trans (Eq.trans ?_ all.store.symm)⟩
    exact foldl_perm laws _ (perm.flatMap_right _)
      ((pending.perm perm).all engine).distinct_readings _

end

/-- Whatever the services have done before, a pass over an open store that is not cancelled
succeeds, and it is the evaluation of each group by itself. -/
theorem pass_evaluates_each_alone (engine : Engine) :
    (∀ (turns : List Turn) (start : World MemoryStore), Turn.FreshRun turns .empty →
      start.store = Turn.run turns .empty → start.store.closed = false →
      ∃ gs summary final, PassOf engine start gs summary final) ∧
    ∀ start : World RelationalStore, start.store.Reachable → start.store.closed = false →
      start.store.database.InCommonYears →
      ∃ gs summary final, PassOf engine start gs summary final := by
  constructor
  · intro turns start fresh reached opened
    have owned := MemoryStore.owned_of_run fresh reached
    exact ⟨_, exists_passOf (MemoryStore.keepsReadings owned.toLinked)
      (MemoryStore.listMetricsGroups_of_open opened) (owned.pending opened) engine⟩
  · intro start reachable opened common
    have keys := reachable.uniqueKeys
    have formed := reachable.wellFormed
    obtain ⟨gs, listed⟩ := RelationalStore.listMetricsGroups_of_common opened formed common
    exact ⟨gs, exists_passOf (RelationalStore.keepsReadings keys formed) listed
      (RelationalStore.pending keys formed reachable.groupKeys listed) engine⟩

/-! ### Canaries -/

def twoGroups : List Turn :=
  [Canary.turn (.createGroup Canary.group) 100,
    Canary.turn (.createGroup { Canary.group with id := .ofNat 8 }) 200]

def twoGroupsWorld : World MemoryStore :=
  (Canary.turn .listGroups 0).world (Turn.run twoGroups .empty)

def canaryWorld : World RelationalStore :=
  (Canary.turn .listGroups 0).world
    ((Canary.turn (.createGroup Canary.group) 100).next (.onDatabase .empty))

theorem twoGroupsWorld_store : twoGroupsWorld.store = Turn.run twoGroups .empty :=
  rfl

theorem exists_summary {engine : Engine} {start : World σ} {other : PassSummary}
    (independent : ∃ gs summary final, PassOf engine start gs summary final)
    (passed : (pass engine none start).1.toOption = some other) :
    ∃ gs final, PassOf engine start gs other final := by
  obtain ⟨gs, summary, final, passOf⟩ := independent
  rw [passOf.passed] at passed
  exact ⟨gs, final, Option.some.inj passed ▸ passOf⟩

/-- No canary has a source. Lenient evaluations of them succeed and have failures, so that each
group is counted twice. -/
theorem canaries_counted_twice :
    (∃ gs final, PassOf lenientEngine twoGroupsWorld gs { evaluated := 2, failed := 2 } final) ∧
      ∃ gs final, PassOf lenientEngine canaryWorld gs { evaluated := 1, failed := 1 } final := by
  obtain ⟨inMemory, inDatabase⟩ := pass_evaluates_each_alone lenientEngine
  constructor
  · apply exists_summary
    · apply inMemory twoGroups
      · decide +kernel
      · exact twoGroupsWorld_store
      · decide +kernel
    · decide +kernel
  · apply exists_summary
    · apply inDatabase
      · exact .next _ .created
      · decide +kernel
      · apply Database.inCommonYears_of_moment .epoch <;> decide +kernel
    · decide +kernel

end Scheduler

end RolloutWatch

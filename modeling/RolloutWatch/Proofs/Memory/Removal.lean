import RolloutWatch.Proofs.Memory.Recording

/-!
Deletion takes back what creation has added. The rows of a new group or metric stand behind
all others, and no row before them carries their identifiers, so that the cascade finds them
all and nothing else. Readings on the new metrics change no other execution.
-/

namespace RolloutWatch

namespace MemoryStore

/-- The store has grown by groups, by metrics of their own identifiers and by an execution for
each of these, and is otherwise as it was. -/
structure Grown (s : MemoryStore) (gs : List MetricsGroup) (ms : List Metric)
    (after : MemoryStore) : Prop where
  newMetrics : ∀ m ∈ ms, m.id ∉ s.metricIds
  tables : ∃ es, es.map MetricExecution.metricId = ms.map Metric.id ∧
    after =
      { s with
        groups := s.groups ++ gs
        metrics := s.metrics ++ ms
        executions := s.executions ++ es }

variable {s after : MemoryStore} {gs : List MetricsGroup} {ms : List Metric}

/-! ### The cascade -/

/-- Without the new metrics the tables of metrics and executions are what they were. -/
theorem Grown.removeMetrics (grown : Grown s gs ms after) (linked : Linked s)
    {gone : Metric → Bool} (goes : ∀ m ∈ ms, gone m = true)
    (stays : ∀ m ∈ s.metrics, gone m = false) :
    after.removeMetrics gone = { s with groups := s.groups ++ gs } := by
  obtain ⟨es, names, rfl⟩ := grown.tables
  have oldMetrics : s.metrics.filter gone = [] :=
    List.filter_eq_nil_iff.mpr fun m stored => by rw [stays m stored]; decide
  have newMetrics : ms.filter gone = ms := List.filter_eq_self.mpr goes
  have keptMetrics : s.metrics.filter (fun m => !gone m) = s.metrics :=
    List.filter_eq_self.mpr fun m stored => by rw [stays m stored]; rfl
  have goneMetrics : ms.filter (fun m => !gone m) = [] :=
    List.filter_eq_nil_iff.mpr fun m added => by rw [goes m added]; decide
  have keptExecutions :
      s.executions.filter (fun e => !(ms.map Metric.id).contains e.metricId) =
        s.executions := by
    refine List.filter_eq_self.mpr fun e stored => ?_
    have owner : e.metricId ∈ s.metricIds := linked.executions ▸ List.mem_map_of_mem stored
    have other : e.metricId ∉ ms.map Metric.id := by
      intro named
      obtain ⟨m, added, same⟩ := List.mem_map.mp named
      exact grown.newMetrics m added (same ▸ owner)
    simp only [List.contains_eq_mem, other, decide_false, Bool.not_false]
  have goneExecutions :
      es.filter (fun e => !(ms.map Metric.id).contains e.metricId) = [] := by
    refine List.filter_eq_nil_iff.mpr fun e added => ?_
    have named : e.metricId ∈ ms.map Metric.id := names ▸ List.mem_map_of_mem added
    simp only [List.contains_eq_mem, named, decide_true, Bool.not_true, Bool.false_eq_true,
      not_false_eq_true]
  unfold MemoryStore.removeMetrics
  simp only [List.filter_append, oldMetrics, newMetrics, keptMetrics, goneMetrics,
    List.nil_append, List.append_nil, keptExecutions, goneExecutions]

theorem Grown.deleteMetricsGroup {g : MetricsGroup} (grown : Grown s [g] ms after)
    (linked : Linked s) (opened : s.closed = false)
    (newGroup : g.id ∉ s.groups.map MetricsGroup.id)
    (owned : ∀ m ∈ ms, m.metricsGroupId = g.id) :
    deleteMetricsGroup g.id after = .ok (true, s) := by
  have goes : ∀ m ∈ ms, decide (m.metricsGroupId = g.id) = true :=
    fun m added => decide_eq_true (owned m added)
  have stays : ∀ m ∈ s.metrics, decide (m.metricsGroupId = g.id) = false := by
    intro m stored
    refine decide_eq_false fun same => newGroup ?_
    exact same ▸ linked.owners m stored
  have removed := grown.removeMetrics linked goes stays
  have others : s.groups.filter (fun other => other.id ≠ g.id) = s.groups := by
    refine List.filter_eq_self.mpr fun other stored => decide_eq_true fun same => newGroup ?_
    exact same ▸ List.mem_map_of_mem stored
  obtain ⟨es, -, rfl⟩ := grown.tables
  refine (whenOpen_of_open _ opened).trans ?_
  have present : (s.groups ++ [g]).any (fun other => other.id = g.id) = true :=
    List.any_eq_true.mpr
      ⟨g, List.mem_append_right _ List.mem_cons_self, decide_eq_true rfl⟩
  have groups : (s.groups ++ [g]).filter (fun other => other.id ≠ g.id) = s.groups := by
    rw [List.filter_append, others]
    simp only [ne_eq, not_true_eq_false, decide_false, Bool.false_eq_true, not_false_eq_true,
      List.filter_cons_of_neg, List.filter_nil, List.append_nil]
  rw [if_pos present, groups]
  -- The cascade does not look at the groups, so that those that are left can be put in after it.
  exact congrArg (fun left : MemoryStore => Except.ok (true, { left with groups := s.groups }))
    removed

theorem Grown.deleteMetric {m : Metric} (grown : Grown s [] [m] after) (linked : Linked s)
    (opened : s.closed = false) : deleteMetric m.id after = .ok (true, s) := by
  have stays : ∀ other ∈ s.metrics, decide (other.id = m.id) = false := by
    intro other stored
    refine decide_eq_false fun same => ?_
    exact grown.newMetrics m List.mem_cons_self (same ▸ List.mem_map_of_mem stored)
  have goes : ∀ other ∈ [m], decide (other.id = m.id) = true := by
    intro other added
    rw [List.mem_singleton.mp added]
    exact decide_eq_true rfl
  have removed := grown.removeMetrics linked goes stays
  rw [List.append_nil] at removed
  have present : after.metrics.any (fun other => other.id = m.id) = true := by
    obtain ⟨es, -, rfl⟩ := grown.tables
    exact List.any_eq_true.mpr
      ⟨m, List.mem_append_right _ List.mem_cons_self, decide_eq_true rfl⟩
  have state : after.closed = false := by
    obtain ⟨es, -, rfl⟩ := grown.tables
    exact opened
  refine (whenOpen_of_open _ state).trans ?_
  rw [present, removed]

/-! ### Readings on the new metrics -/

theorem Grown.writeExecution (grown : Grown s gs ms after) (linked : Linked s)
    (distinct : (after.executions.map MetricExecution.id).Nodup) {id : EntityId}
    (new : id ∈ ms.map Metric.id) {e : MetricExecution}
    (found : after.executionFor id = some e) {state : MetricExecution} (same : state.id = e.id) :
    Grown s gs ms (writeExecution state after) := by
  refine { newMetrics := grown.newMetrics, tables := ?_ }
  obtain ⟨es, names, rfl⟩ := grown.tables
  obtain ⟨stored, named⟩ := executionFor_names found
  have notOld : e ∉ s.executions := by
    intro old
    obtain ⟨m, added, equal⟩ := List.mem_map.mp new
    apply grown.newMetrics m added
    rw [equal, ← named, ← linked.executions]
    exact List.mem_map_of_mem old
  let changed : MetricExecution → MetricExecution := fun row =>
    if row.id = state.id then row.withStateOf state else row
  have rows : (Store.updateFirst (fun row => row.id = state.id)
      (fun row => row.withStateOf state) (s.executions ++ es)).2 =
        (s.executions ++ es).map changed :=
    Store.updateFirst_of_nodup MetricExecution.id state.id _ _ distinct
  have oldRows : s.executions.map changed = s.executions := by
    refine (List.map_congr_left fun row old => ?_).trans (List.map_id _)
    refine if_neg fun equal => notOld ?_
    have present : row ∈ s.executions ++ es := List.mem_append_left _ old
    exact List.inj_on_of_nodup_map distinct present stored (equal.trans same) ▸ old
  have newNames : (es.map changed).map MetricExecution.metricId = ms.map Metric.id := by
    rw [List.map_map, ← names]
    refine List.map_congr_left fun row _ => ?_
    simp only [changed, Function.comp_apply]
    split <;> rfl
  refine ⟨es.map changed, newNames, ?_⟩
  unfold MemoryStore.writeExecution
  simp only [rows, List.map_append, oldRows]

theorem Grown.record (grown : Grown s gs ms after) (linked : Linked s)
    (policy : TransitionPolicy) {m : Metric} (value : Binary64)
    (new : m.id ∈ ms.map Metric.id) {world : World MemoryStore} (here : world.store = after)
    (owned : Owned after) : Grown s gs ms (Tracker.record policy m value world).2.store := by
  by_cases ready : Ready m.id world.store
  · obtain ⟨opened, e, found⟩ := ready
    rw [record_of_found policy value opened found]
    rw [here] at found ⊢
    exact grown.writeExecution linked owned.executionIds new found rfl
  · obtain ⟨fault, refused⟩ := record_of_not_ready policy value ready
    rw [refused, here]
    exact grown

theorem Grown.recordAll (grown : Grown s gs ms after) (linked : Linked s)
    (policy : TransitionPolicy) (rs : List Recording)
    (new : ∀ r ∈ rs, r.metric.id ∈ ms.map Metric.id) {world : World MemoryStore}
    (here : world.store = after) (owned : Owned after) :
    Grown s gs ms (Evaluation.recordAll policy rs world).2.store := by
  induction rs generalizing world after with
  | nil => exact here ▸ grown
  | cons r rest ih =>
      obtain ⟨newHere, newLater⟩ := List.forall_mem_cons.mp new
      have first := grown.record linked policy r.value newHere here owned
      have writes := Tracker.record_writes policy r.metric r.value world
      rw [Evaluation.recordAll_cons]
      rcases recorded : Tracker.record policy r.metric r.value world with ⟨answer, next⟩
      rw [recorded] at first writes
      cases answer with
      | error fault => exact first
      | ok e =>
          have ownedNext : Owned next.store :=
            (here ▸ owned : Owned world.store).of_links (executionWrites_links writes)
          have others := ih first newLater rfl ownedNext
          simp only
          rcases recordedRest : Evaluation.recordAll policy rest next with ⟨answers, final⟩
          rw [recordedRest] at others
          cases answers <;> exact others

theorem Grown.evaluateWith (grown : Grown s gs ms after) (linked : Linked s) (engine : Engine)
    {groupId : EntityId} (limits : QueryPhase.Limits)
    (new : ∀ m ∈ after.metrics, m.metricsGroupId = groupId → m.id ∈ ms.map Metric.id)
    {world : World MemoryStore} (here : world.store = after) (owned : Owned after) :
    Grown s gs ms (Evaluation.evaluateWith engine groupId limits world).2.store := by
  rcases Evaluation.evaluateWith_cases engine groupId limits world with
    ⟨fault, failed, early, unchanged, -⟩ |
    ⟨g, outcomes, asked, loaded, answered, unchanged, -, tracked⟩
  · rw [early, unchanged, here]
    exact grown
  · have known : ∀ m ∈ g.metrics, m.id ∈ ms.map Metric.id := by
      rw [here] at loaded
      obtain ⟨-, result⟩ := whenOpen_ok loaded
      obtain ⟨row, found, rfl⟩ := Option.map_eq_some_iff.mp (Except.ok.inj result)
      have wanted := (Store.find_some_key MetricsGroup.id found).2
      intro m member
      obtain ⟨stored, present, rfl⟩ := List.mem_map.mp member
      obtain ⟨inTable, owner⟩ := List.mem_filter.mp present
      rw [hydrate_id]
      exact new stored inTable ((of_decide_eq_true owner).trans wanted)
    have ofGroup : ∀ r ∈ outcomes.filterMap Outcome.recording?, r.metric ∈ g.metrics := by
      intro r member
      have sublist := Evaluation.recordings_sublist outcomes
      rw [Evaluation.queryAll_metrics answered] at sublist
      exact sublist.subset (List.mem_map_of_mem member)
    rw [tracked, Evaluation.track_store]
    exact grown.recordAll linked _ _ (fun r member => known r.metric (ofGroup r member))
      (unchanged.trans here) owned

end MemoryStore

namespace Turn

/-- The turn leaves the store as it is, or it records readings on some metrics: a reading of
one of them, or the readings of a group that has no other metrics. -/
def RecordsOn (ids : List EntityId) (turn : Turn) (s : MemoryStore) : Prop :=
  match turn.call with
  | .record m _ => m.id ∈ ids
  | .evaluate groupId => ∀ m ∈ s.metrics, m.metricsGroupId = groupId → m.id ∈ ids
  | .evaluateWith groupId _ => ∀ m ∈ s.metrics, m.metricsGroupId = groupId → m.id ∈ ids
  | _ => turn.next s = s

def RecordingRun (ids : List EntityId) : List Turn → MemoryStore → Prop
  | [], _ => True
  | turn :: rest, s => turn.RecordsOn ids s ∧ RecordingRun ids rest (turn.next s)

theorem RecordsOn.writes {ids : List EntityId} {turn : Turn} {s : MemoryStore}
    (records : turn.RecordsOn ids s) : ExecutionWrites s (turn.next s) := by
  obtain ⟨call, engine, supply, registry, clock, log⟩ := turn
  cases call with
  | record m value => exact Tracker.record_writes _ m value (world _ s)
  | evaluate groupId => exact Evaluation.evaluateWith_writes engine groupId _ (world _ s)
  | evaluateWith groupId limits =>
      exact Evaluation.evaluateWith_writes engine groupId limits (world _ s)
  | _ =>
      have unchanged : Turn.next _ s = s := records
      rw [unchanged]
      exact Relation.ReflTransGen.refl

end Turn

namespace MemoryStore

variable {s after : MemoryStore} {gs : List MetricsGroup} {ms : List Metric}

theorem Grown.next (grown : Grown s gs ms after) (linked : Linked s) (owned : Owned after)
    {turn : Turn} (records : turn.RecordsOn (ms.map Metric.id) after) :
    Grown s gs ms (turn.next after) := by
  obtain ⟨call, engine, supply, registry, clock, log⟩ := turn
  cases call with
  | record m value => exact grown.record linked _ value records rfl owned
  | evaluate groupId => exact grown.evaluateWith linked engine _ records rfl owned
  | evaluateWith groupId limits =>
      exact grown.evaluateWith linked engine limits records rfl owned
  | _ =>
      have unchanged : Turn.next _ after = after := records
      rw [unchanged]
      exact grown

theorem Grown.run (grown : Grown s gs ms after) (linked : Linked s) (owned : Owned after)
    {between : List Turn} (records : Turn.RecordingRun (ms.map Metric.id) between after) :
    Grown s gs ms (Turn.run between after) := by
  induction between generalizing after with
  | nil => exact grown
  | cons turn rest ih =>
      exact ih (grown.next linked owned records.1)
        (owned.of_links (executionWrites_links records.1.writes)) records.2

/-! ### Creation and deletion -/

def LeadsBack (call : Action MemoryStore Unit) (start goal : MemoryStore) : Prop :=
  ∀ world : World MemoryStore, world.store = start →
    call world = (.ok (), { world with store := goal })

theorem leadsBack_delete {id : EntityId} {start goal : MemoryStore}
    (deleted : deleteMetricsGroup id start = .ok (true, goal)) :
    LeadsBack (Groups.delete id) start goal := by
  intro world here
  have written : Store.deleteMetricsGroup id world.store = .ok (true, goal) := here ▸ deleted
  rw [Groups.delete_apply, written]
  rfl

theorem leadsBack_removeMetric {id : EntityId} {start goal : MemoryStore}
    (deleted : deleteMetric id start = .ok (true, goal)) :
    LeadsBack (Groups.removeMetric id) start goal := by
  intro world here
  have written : Store.deleteMetric id world.store = .ok (true, goal) := here ▸ deleted
  rw [Groups.removeMetric_apply, written]
  rfl

private theorem grown_of_created {turn : Turn} {submitted g : MetricsGroup}
    (called : turn.call = .createGroup submitted)
    (created : (Groups.create submitted (turn.world s)).1 = .ok g) :
    Grown s [{ g with metrics := [] }] g.metrics (turn.next s) ∧ s.closed = false ∧
      g.id ∉ s.groups.map MetricsGroup.id ∧ ∀ m ∈ g.metrics, m.metricsGroupId = g.id := by
  obtain ⟨call, engine, supply, registry, clock, log⟩ := turn
  subst called
  have equation := Groups.create_apply submitted
    (Turn.world ⟨.createGroup submitted, engine, supply, registry, clock, log⟩ s)
  unfold Turn.next Turn.leaves
  simp only [ServiceCall.perform]
  rw [equation] at created ⊢
  cases valid : submitted.violations.toResult with
  | error e =>
      rw [valid] at created
      cases created
  | ok _ =>
      rw [valid] at created
      simp only [Turn.world] at created ⊢
      cases written : Store.insertMetricsGroup (Groups.prepare submitted supply).1 s with
      | error e =>
          rw [written] at created
          cases created
      | ok stored =>
          rw [written] at created
          cases created
          obtain ⟨opened, -⟩ := whenOpen_ok written
          obtain ⟨newGroup, -, newMetrics, rfl⟩ := insertMetricsGroup_tables written
          have anew := Groups.prepare_startsAnew submitted supply
          have names : ((Groups.prepare submitted supply).1.metrics.map Metric.execution).map
              MetricExecution.metricId =
                (Groups.prepare submitted supply).1.metrics.map Metric.id := by
            rw [List.map_map]
            exact List.map_congr_left fun m member => (anew m member).names
          exact ⟨⟨newMetrics, _, names, rfl⟩, opened, newGroup,
            fun m member => (anew m member).group⟩

private theorem grown_of_added {turn : Turn} {groupId : EntityId} {submitted m : Metric}
    (called : turn.call = .addMetric groupId submitted)
    (added : (Groups.addMetric groupId submitted (turn.world s)).1 = .ok m) :
    Grown s [] [m] (turn.next s) ∧ s.closed = false := by
  obtain ⟨call, engine, supply, registry, clock, log⟩ := turn
  subst called
  have equation := Groups.addMetric_apply groupId submitted
    (Turn.world ⟨.addMetric groupId submitted, engine, supply, registry, clock, log⟩ s)
  unfold Turn.next Turn.leaves
  simp only [ServiceCall.perform]
  rw [equation] at added ⊢
  cases valid : submitted.violations.toResult with
  | error e =>
      rw [valid] at added
      cases added
  | ok _ =>
      rw [valid] at added
      simp only [Turn.world] at added ⊢
      cases loaded : Store.findMetricsGroup groupId s with
      | error e =>
          rw [loaded] at added
          cases added
      | ok answer =>
          rw [loaded] at added
          cases answer with
          | none => cases added
          | some g =>
              simp only at added ⊢
              cases written : Store.insertMetric
                  (MetricsGroup.adoptMetric g.id g.circleId submitted supply).1 s with
              | error e =>
                  rw [written] at added
                  cases added
              | ok stored =>
                  rw [written] at added
                  cases added
                  obtain ⟨opened, -⟩ := whenOpen_ok written
                  obtain ⟨-, newMetric, rfl⟩ := insertMetric_tables written
                  have anew :=
                    MetricsGroup.adoptMetric_startsAnew g.id g.circleId submitted supply
                  refine ⟨⟨?_, [_], congrArg ([·]) anew.names, ?_⟩, opened⟩
                  · intro other member
                    rw [List.mem_singleton.mp member]
                    exact newMetric
                  · rw [List.append_nil]

/-- A group or a metric that has just been created can be deleted, and then all tables are what
they were before, rows and order. Readings that have been recorded on the new metrics in
between go with them, if no identifier has been drawn twice. -/
theorem deletion_undoes_creation (turns : List Turn) (turn : Turn) :
    (∀ submitted g, turn.call = .createGroup submitted →
        (Groups.create submitted (turn.world (Turn.run turns empty))).1 = .ok g →
        LeadsBack (Groups.delete g.id) (Turn.run (turns ++ [turn]) empty)
            (Turn.run turns empty) ∧
          ∀ between, Turn.FreshRun (turns ++ [turn]) empty →
            Turn.RecordingRun (g.metrics.map Metric.id) between
              (Turn.run (turns ++ [turn]) empty) →
            LeadsBack (Groups.delete g.id) (Turn.run (turns ++ [turn] ++ between) empty)
              (Turn.run turns empty)) ∧
      ∀ groupId submitted m, turn.call = .addMetric groupId submitted →
        (Groups.addMetric groupId submitted (turn.world (Turn.run turns empty))).1 = .ok m →
        LeadsBack (Groups.removeMetric m.id) (Turn.run (turns ++ [turn]) empty)
            (Turn.run turns empty) ∧
          ∀ between, Turn.FreshRun (turns ++ [turn]) empty →
            Turn.RecordingRun [m.id] between (Turn.run (turns ++ [turn]) empty) →
            LeadsBack (Groups.removeMetric m.id) (Turn.run (turns ++ [turn] ++ between) empty)
              (Turn.run turns empty) := by
  have linked : Linked (Turn.run turns empty) := empty_owned.toLinked.run turns
  have last : Turn.run (turns ++ [turn]) empty = turn.next (Turn.run turns empty) :=
    Turn.run_append turns [turn] empty
  constructor
  · intro submitted g called created
    obtain ⟨grown, opened, newGroup, owned⟩ := grown_of_created called created
    rw [← last] at grown
    refine ⟨leadsBack_delete (grown.deleteMetricsGroup linked opened newGroup owned), ?_⟩
    intro between fresh records
    have later := grown.run linked (empty_owned.run fresh) records
    rw [Turn.run_append]
    exact leadsBack_delete (later.deleteMetricsGroup linked opened newGroup owned)
  · intro groupId submitted m called added
    obtain ⟨grown, opened⟩ := grown_of_added called added
    rw [← last] at grown
    refine ⟨leadsBack_removeMetric (grown.deleteMetric linked opened), ?_⟩
    intro between fresh records
    have later := grown.run linked (empty_owned.run fresh) records
    rw [Turn.run_append]
    exact leadsBack_removeMetric (later.deleteMetric linked opened)

/-- After the canaries another group is created, or another metric is added, and is met before
it is taken back. -/
theorem later_canaries_undone :
    (∃ g, (Groups.create { Canary.group with id := .ofNat 9 }
          ((Canary.turn (.createGroup { Canary.group with id := .ofNat 9 }) 300).world
            (Turn.run Canary.turns empty))).1 = .ok g ∧
        LeadsBack (Groups.delete g.id)
          (Turn.run (Canary.turns ++
            [Canary.turn (.createGroup { Canary.group with id := .ofNat 9 }) 300] ++
            [Canary.turn (.record (Canary.metric 300) (.ofMagnitude false 1)) 400]) empty)
          (Turn.run Canary.turns empty)) ∧
      ∃ m, (Groups.addMetric Canary.group.id (Canary.metric 7)
          (Canary.addsLater.world (Turn.run Canary.turns empty))).1 = .ok m ∧
        LeadsBack (Groups.removeMetric m.id)
          (Turn.run (Canary.turns ++ [Canary.addsLater] ++
            [Canary.turn (.record (Canary.metric 7) (.ofMagnitude false 1)) 400]) empty)
          (Turn.run Canary.turns empty) := by
  constructor
  · let creates := Canary.turn (.createGroup { Canary.group with id := .ofNat 9 }) 300
    have succeeds : (Groups.create { Canary.group with id := .ofNat 9 }
        (creates.world (Turn.run Canary.turns empty))).1.isOk = true := by
      decide +kernel
    obtain ⟨g, after, created⟩ := Action.exists_ok succeeds
    have answered := congrArg Prod.fst created
    obtain ⟨-, undone⟩ :=
      (deletion_undoes_creation Canary.turns creates).1 _ g rfl answered
    have ids : (Groups.create { Canary.group with id := .ofNat 9 }
        (creates.world (Turn.run Canary.turns empty))).1.toOption.map
          (fun g => g.metrics.map Metric.id) = some [.ofNat 300] := by
      decide +kernel
    rw [answered] at ids
    refine ⟨g, answered, undone _ (by decide +kernel) ⟨?_, trivial⟩⟩
    change EntityId.ofNat 300 ∈ g.metrics.map Metric.id
    rw [(Option.some.inj ids : g.metrics.map Metric.id = _)]
    exact List.mem_cons_self
  · have succeeds : (Groups.addMetric Canary.group.id (Canary.metric 7)
        (Canary.addsLater.world (Turn.run Canary.turns empty))).1.isOk = true := by
      decide +kernel
    obtain ⟨m, after, added⟩ := Action.exists_ok succeeds
    have answered := congrArg Prod.fst added
    obtain ⟨-, undone⟩ :=
      (deletion_undoes_creation Canary.turns Canary.addsLater).2 _ _ m rfl answered
    have id : (Groups.addMetric Canary.group.id (Canary.metric 7)
        (Canary.addsLater.world (Turn.run Canary.turns empty))).1.toOption.map Metric.id =
          some (.ofNat 7) := by
      decide +kernel
    rw [answered] at id
    refine ⟨m, answered, undone _ (by decide +kernel) ⟨?_, trivial⟩⟩
    exact List.mem_singleton.mpr (Option.some.inj id).symm

end MemoryStore

end RolloutWatch

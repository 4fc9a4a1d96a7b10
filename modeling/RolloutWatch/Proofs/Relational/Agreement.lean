import RolloutWatch.Proofs.Relational.Insertion
import RolloutWatch.Proofs.Service.Adoption

/-!
The two stores agree. A turn on a store in memory and the same turn on its rows leave a store
and its rows again, and answer the same. What the answers may differ in is the payload of a
NaN, which the text of a number does not keep, and the wording of a fault of persistence.
-/

namespace RolloutWatch

theorem Binary64.settled_settled (x : Binary64) : x.settled.settled = x.settled := by
  unfold settled
  cases number : x.isNaN with
  | true => rfl
  | false => simp only [Bool.false_eq_true, if_false, number]

theorem MetricExecution.settled_settled (e : MetricExecution) : e.settled.settled = e.settled := by
  unfold settled
  rw [Binary64.settled_settled]

theorem Metric.settled_settled (m : Metric) : m.settled.settled = m.settled := by
  unfold settled
  rw [Binary64.settled_settled, MetricExecution.settled_settled]

theorem MetricsGroup.settled_settled (g : MetricsGroup) : g.settled.settled = g.settled := by
  have twice : Metric.settled ∘ Metric.settled = Metric.settled := funext Metric.settled_settled
  unfold settled
  simp only [List.map_map, twice]

theorem MetricsGroup.map_settled_settled (gs : List MetricsGroup) :
    (gs.map settled).map settled = gs.map settled := by
  rw [List.map_map]
  exact List.map_congr_left fun g _ => g.settled_settled

theorem MetricExecution.map_settled_settled (es : List MetricExecution) :
    (es.map settled).map settled = es.map settled := by
  rw [List.map_map]
  exact List.map_congr_left fun e _ => e.settled_settled

namespace ServiceCall

/-- The call reads drivers. All other calls concern the store alone. -/
def evaluates : ServiceCall → Bool
  | .evaluate _ => true
  | .evaluateWith _ _ => true
  | _ => false

def settledAnswer : (call : ServiceCall) → call.Answer → call.Answer
  | .parseGroup _, g => MetricsGroup.settled g
  | .createGroup _, g => MetricsGroup.settled g
  | .listGroups, gs => List.map MetricsGroup.settled gs
  | .findGroup _, g => MetricsGroup.settled g
  | .updateGroup _ _, g => MetricsGroup.settled g
  | .addMetric _ _, m => Metric.settled m
  | .updateMetric _, m => Metric.settled m
  | .listExecutions, es => List.map MetricExecution.settled es
  | .findExecution _, e => MetricExecution.settled e
  | .updateExecution _, e => MetricExecution.settled e
  | .record _ _, e => MetricExecution.settled e
  | .createSource _, a => a
  | .listSources _ _, a => a
  | .findSource _, a => a
  | .decryptSource _, a => a
  | .deleteSource _, a => a
  | .setHealth _ _, a => a
  | .deleteGroup _, a => a
  | .removeMetric _, a => a
  | .evaluate _, a => a
  | .evaluateWith _ _, a => a
  | .closeStore, a => a

/-- The answers are equal up to the payload of NaNs, or errors that are alike. -/
def SameAnswer (call : ServiceCall) : Except Error call.Answer → Except Error call.Answer → Prop :=
  Agrees fun a b => call.settledAnswer a = call.settledAnswer b

end ServiceCall

namespace MemoryStore

structure Mirrorable (s : MemoryStore) : Prop where
  owned : Owned s
  dated : SourcesDated s
  chronological : s.Chronological

def mirrorWorld (world : World MemoryStore) : World RelationalStore :=
  { store := world.store.mirror
    supply := world.supply
    registry := world.registry
    clock := world.clock
    log := world.log }

def CameOutSame (call : ServiceCall)
    (inMemory : Except Error call.Answer × World MemoryStore)
    (inRows : Except Error call.Answer × World RelationalStore) : Prop :=
  inRows.2 = mirrorWorld inMemory.2 ∧ call.SameAnswer inMemory.1 inRows.1

theorem required_map {α β : Type} (kind : EntityKind) (id : EntityId) (view : α → β)
    (answer : Except Error (Option α)) :
    Action.required kind id (answer.map (Option.map view)) =
      (Action.required kind id answer).map view := by
  cases answer with
  | error e => rfl
  | ok found => cases found <;> rfl

theorem sameAnswer_refl {call : ServiceCall} (answer : Except Error call.Answer) :
    call.SameAnswer answer answer := by
  cases answer with
  | error e => exact .inl rfl
  | ok a => rfl

theorem sameAnswer_map (call : ServiceCall) (view : call.Answer → call.Answer)
    (settled : ∀ a, call.settledAnswer (view a) = call.settledAnswer a)
    {answer mirrored : Except Error call.Answer} (same : mirrored = answer.map view) :
    call.SameAnswer answer mirrored := by
  rw [same]
  exact Agrees.map answer fun a _ => (settled a).symm

/-! ### Data sources -/

theorem createSource_same (engine : Engine) (input : NewDataSource) (world : World MemoryStore) :
    CameOutSame (.createSource input) (Sources.create engine input world)
      (Sources.create engine input (mirrorWorld world)) := by
  rw [Sources.create_apply, Sources.create_apply]
  cases input.violations.toResult with
  | error e => exact ⟨rfl, .inl rfl⟩
  | ok valid =>
      have inserted : Agrees Mirrored
          (Store.insertDataSource (Sources.prepare engine input world.supply).1 world.store)
          (Store.insertDataSource (Sources.prepare engine input world.supply).1
            world.store.mirror) :=
        world.store.agrees_insertDataSource _
      simp only [mirrorWorld]
      rcases inserted.cases with
        ⟨e, f, refused, rowRefused, alike⟩ | ⟨after, _, written, rowWritten, rfl⟩
      · rw [refused, rowRefused]
        exact ⟨rfl, alike⟩
      · rw [written, rowWritten]
        exact ⟨rfl, rfl⟩

theorem listSources_same {world : World MemoryStore} (ready : world.store.Mirrorable)
    (workspaceId : EntityId) (health : Option Health) :
    CameOutSame (.listSources workspaceId health) (Sources.list workspaceId health world)
      (Sources.list workspaceId health (mirrorWorld world)) := by
  have read : Store.listDataSources workspaceId health world.store.mirror =
      Store.listDataSources workspaceId health world.store :=
    mirror_listDataSources ready.dated workspaceId health
  refine ⟨rfl, ?_⟩
  change ServiceCall.SameAnswer (.listSources workspaceId health)
    (Store.listDataSources workspaceId health world.store)
    (Store.listDataSources workspaceId health world.store.mirror)
  rw [read]
  exact sameAnswer_refl _

theorem findDataSource_mirror {s : MemoryStore} (ready : s.Mirrorable) (id : EntityId) :
    Store.findDataSource id s.mirror = Store.findDataSource id s :=
  mirror_findDataSource ready.dated id

theorem findSource_same {world : World MemoryStore} (ready : world.store.Mirrorable)
    (id : EntityId) :
    CameOutSame (.findSource id) (Sources.find id world)
      (Sources.find id (mirrorWorld world)) := by
  have read := findDataSource_mirror ready id
  rw [Sources.find_apply, Sources.find_apply]
  refine ⟨rfl, ?_⟩
  simp only [mirrorWorld, read]
  exact sameAnswer_refl _

theorem decryptSource_same {world : World MemoryStore} (ready : world.store.Mirrorable)
    (engine : Engine) (id : EntityId) :
    CameOutSame (.decryptSource id) (Sources.findDecrypted engine id world)
      (Sources.findDecrypted engine id (mirrorWorld world)) := by
  have read := findDataSource_mirror ready id
  rw [Sources.findDecrypted_apply, Sources.findDecrypted_apply]
  refine ⟨rfl, ?_⟩
  simp only [mirrorWorld, read]
  exact sameAnswer_refl _

theorem deleteSource_same (id : EntityId) (world : World MemoryStore) :
    CameOutSame (.deleteSource id) (Sources.delete id world)
      (Sources.delete id (mirrorWorld world)) := by
  have written (deletedAt : Instant) :
      Store.softDeleteDataSource id deletedAt world.store.mirror =
        (Store.softDeleteDataSource id deletedAt world.store).map mirrorFound :=
    world.store.mirror_changeSource id rfl
  rw [Sources.delete_apply, Sources.delete_apply]
  simp only [mirrorWorld, written]
  cases Store.softDeleteDataSource id world.supply.now.1 world.store with
  | error e => exact ⟨rfl, .inl rfl⟩
  | ok result =>
      obtain ⟨found, after⟩ := result
      cases found with
      | true => exact ⟨rfl, rfl⟩
      | false => exact ⟨rfl, .inl rfl⟩

theorem setHealth_same (id : EntityId) (health : Health) (world : World MemoryStore) :
    CameOutSame (.setHealth id health) (Sources.setHealth id health world)
      (Sources.setHealth id health (mirrorWorld world)) := by
  have written : Store.setDataSourceHealth id health world.store.mirror =
      (Store.setDataSourceHealth id health world.store).map mirrorFound :=
    world.store.mirror_changeSource id rfl
  rw [Sources.setHealth_apply, Sources.setHealth_apply]
  simp only [mirrorWorld, written]
  cases Store.setDataSourceHealth id health world.store with
  | error e => exact ⟨rfl, .inl rfl⟩
  | ok result =>
      obtain ⟨found, after⟩ := result
      cases found with
      | true => exact ⟨rfl, rfl⟩
      | false => exact ⟨rfl, .inl rfl⟩

/-! ### Groups -/

/-- The metrics of a group that is created can be inserted, as all that is drawn is fresh. -/
theorem allInsertable_prepare {s : MemoryStore} {g : MetricsGroup} {supply : Supply}
    (distinct : (supply.idsUpTo (Groups.prepare g supply).2).Nodup)
    (unused : ∀ id ∈ supply.idsUpTo (Groups.prepare g supply).2, id ∉ s.idsInUse) :
    s.AllInsertable (Groups.prepare g supply).1.metrics := by
  rw [Groups.prepare_draws] at distinct unused
  obtain ⟨metricIds, executionIds, -⟩ := List.nodup_append.mp distinct
  refine
    { names := fun m member => (Groups.prepare_startsAnew g supply m member).names
      metricIds
      newMetrics := fun m member stored => ?_
      executionIds
      newExecutions := fun m member stored => ?_ }
  · refine unused m.id (List.mem_append_left _ (List.mem_map_of_mem member)) ?_
    exact List.mem_append_left _ (List.mem_append_right _ stored)
  · refine unused m.execution.id (List.mem_append_right _ (List.mem_map.mpr ⟨m, member, rfl⟩)) ?_
    exact List.mem_append_right _ stored

theorem createGroup_same {world : World MemoryStore} (ready : world.store.Mirrorable)
    {g : MetricsGroup}
    (insertable : g.violations.toResult = .ok () →
      world.store.AllInsertable (Groups.prepare g world.supply).1.metrics) :
    CameOutSame (.createGroup g) (Groups.create g world)
      (Groups.create g (mirrorWorld world)) := by
  rw [Groups.create_apply, Groups.create_apply]
  cases valid : g.violations.toResult with
  | error e => exact ⟨rfl, .inl rfl⟩
  | ok checked =>
      have inserted : Agrees Mirrored
          (Store.insertMetricsGroup (Groups.prepare g world.supply).1 world.store)
          (Store.insertMetricsGroup (Groups.prepare g world.supply).1 world.store.mirror) :=
        agrees_insertMetricsGroup ready.owned.toLinked (insertable valid)
      simp only [mirrorWorld]
      rcases inserted.cases with
        ⟨e, f, refused, rowRefused, alike⟩ | ⟨after, _, written, rowWritten, rfl⟩
      · rw [refused, rowRefused]
        exact ⟨rfl, alike⟩
      · rw [written, rowWritten]
        exact ⟨rfl, rfl⟩

theorem listGroups_same {world : World MemoryStore} (ready : world.store.Mirrorable) :
    CameOutSame .listGroups (Groups.findAll world) (Groups.findAll (mirrorWorld world)) := by
  have read : Store.listMetricsGroups world.store.mirror =
      (Store.listMetricsGroups world.store).map (List.map MetricsGroup.settled) :=
    mirror_listMetricsGroups ready.owned.toLinked ready.chronological
  exact ⟨rfl, sameAnswer_map .listGroups _ MetricsGroup.map_settled_settled read⟩

theorem findMetricsGroup_mirror {s : MemoryStore} (ready : s.Mirrorable) (id : EntityId) :
    Store.findMetricsGroup id s.mirror =
      (Store.findMetricsGroup id s).map (Option.map MetricsGroup.settled) :=
  mirror_findMetricsGroup ready.owned.toLinked ready.chronological id

theorem findGroup_same {world : World MemoryStore} (ready : world.store.Mirrorable)
    (id : EntityId) :
    CameOutSame (.findGroup id) (Groups.find id world) (Groups.find id (mirrorWorld world)) := by
  have read := findMetricsGroup_mirror ready id
  rw [Groups.find_apply, Groups.find_apply]
  refine ⟨rfl, sameAnswer_map (.findGroup id) _ MetricsGroup.settled_settled ?_⟩
  exact (congrArg (Action.required .metricsGroup id) read).trans (required_map _ _ _ _)

theorem updateGroup_same {world : World MemoryStore} {id : EntityId} {u : MetricsGroupUpdate}
    (readyAfter : (Groups.update id u world).2.store.Mirrorable) :
    CameOutSame (.updateGroup id u) (Groups.update id u world)
      (Groups.update id u (mirrorWorld world)) := by
  have written : Store.updateMetricsGroup id u world.store.mirror =
      (Store.updateMetricsGroup id u world.store).map mirrorFound :=
    world.store.mirror_updateMetricsGroup id u
  rw [Groups.update_apply] at readyAfter
  rw [Groups.update_apply, Groups.update_apply]
  cases valid : u.violations.toResult with
  | error e => exact ⟨rfl, .inl rfl⟩
  | ok checked =>
      simp only [valid, mirrorWorld, written] at readyAfter ⊢
      cases answered : Store.updateMetricsGroup id u world.store with
      | error e => exact ⟨rfl, .inl rfl⟩
      | ok result =>
          obtain ⟨found, after⟩ := result
          cases found with
          | false => exact ⟨rfl, .inl rfl⟩
          | true =>
              rw [answered] at readyAfter
              simp only [Groups.find_apply] at readyAfter
              have ready : { world with store := after }.store.Mirrorable := readyAfter
              exact findGroup_same ready id

theorem deleteGroup_same {world : World MemoryStore} (ready : world.store.Mirrorable)
    (id : EntityId) :
    CameOutSame (.deleteGroup id) (Groups.delete id world)
      (Groups.delete id (mirrorWorld world)) := by
  have written : Store.deleteMetricsGroup id world.store.mirror =
      (Store.deleteMetricsGroup id world.store).map mirrorFound :=
    mirror_deleteMetricsGroup ready.owned.toLinked id
  rw [Groups.delete_apply, Groups.delete_apply]
  simp only [mirrorWorld, written]
  cases Store.deleteMetricsGroup id world.store with
  | error e => exact ⟨rfl, .inl rfl⟩
  | ok result =>
      obtain ⟨found, after⟩ := result
      cases found with
      | true => exact ⟨rfl, rfl⟩
      | false => exact ⟨rfl, .inl rfl⟩

/-! ### Metrics -/

theorem addMetric_same {world : World MemoryStore} (ready : world.store.Mirrorable)
    {groupId : EntityId} {m : Metric}
    (newExecution : m.violations.toResult = .ok () → ∀ g,
      Store.findMetricsGroup groupId world.store = .ok (some g) →
        (MetricsGroup.adoptMetric g.id g.circleId m world.supply).1.execution.id ∉
          world.store.executions.map MetricExecution.id) :
    CameOutSame (.addMetric groupId m) (Groups.addMetric groupId m world)
      (Groups.addMetric groupId m (mirrorWorld world)) := by
  have read := findMetricsGroup_mirror ready groupId
  rw [Groups.addMetric_apply, Groups.addMetric_apply]
  cases valid : m.violations.toResult with
  | error e => exact ⟨rfl, .inl rfl⟩
  | ok checked =>
      simp only [mirrorWorld, read]
      cases found : Store.findMetricsGroup groupId world.store with
      | error e => exact ⟨rfl, .inl rfl⟩
      | ok answer =>
          cases answer with
          | none => exact ⟨rfl, .inl rfl⟩
          | some g =>
              have insertable : world.store.Insertable
                  (MetricsGroup.adoptMetric g.id g.circleId m world.supply).1 :=
                { names := rfl
                  newExecution := newExecution valid g found }
              have inserted : Agrees Mirrored
                  (Store.insertMetric (MetricsGroup.adoptMetric g.id g.circleId m world.supply).1
                    world.store)
                  (Store.insertMetric (MetricsGroup.adoptMetric g.id g.circleId m world.supply).1
                    world.store.mirror) :=
                agrees_insertMetric ready.owned.toLinked insertable
              have ids : g.settled.id = g.id ∧ g.settled.circleId = g.circleId := ⟨rfl, rfl⟩
              simp only [Except.map, Option.map_some, ids]
              rcases inserted.cases with
                ⟨e, f, refused, rowRefused, alike⟩ | ⟨after, _, written, rowWritten, rfl⟩
              · rw [refused, rowRefused]
                exact ⟨rfl, alike⟩
              · rw [written, rowWritten]
                exact ⟨rfl, rfl⟩

theorem updateMetric_same {world : World MemoryStore} {m : Metric}
    (readyAfter : (Groups.updateMetric m world).2.store.Mirrorable) :
    CameOutSame (.updateMetric m) (Groups.updateMetric m world)
      (Groups.updateMetric m (mirrorWorld world)) := by
  have written : Store.updateMetric m world.store.mirror =
      (Store.updateMetric m world.store).map mirrorFound :=
    world.store.mirror_updateMetric m
  rw [Groups.updateMetric_apply] at readyAfter
  rw [Groups.updateMetric_apply, Groups.updateMetric_apply]
  cases valid : m.violations.toResult with
  | error e => exact ⟨rfl, .inl rfl⟩
  | ok checked =>
      simp only [valid, mirrorWorld, written] at readyAfter ⊢
      cases answered : Store.updateMetric m world.store with
      | error e => exact ⟨rfl, .inl rfl⟩
      | ok result =>
          obtain ⟨found, after⟩ := result
          cases found with
          | false => exact ⟨rfl, .inl rfl⟩
          | true =>
              rw [answered] at readyAfter
              have read : Store.findMetric m.id after.mirror =
                  (Store.findMetric m.id after).map (Option.map Metric.settled) :=
                mirror_findMetric readyAfter.owned.toLinked readyAfter.chronological m.id
              refine ⟨rfl, sameAnswer_map (.updateMetric m) _ Metric.settled_settled ?_⟩
              exact (congrArg (Action.required .metric m.id) read).trans (required_map _ _ _ _)

theorem removeMetric_same {world : World MemoryStore} (ready : world.store.Mirrorable)
    (id : EntityId) :
    CameOutSame (.removeMetric id) (Groups.removeMetric id world)
      (Groups.removeMetric id (mirrorWorld world)) := by
  have written : Store.deleteMetric id world.store.mirror =
      (Store.deleteMetric id world.store).map mirrorFound :=
    mirror_deleteMetric ready.owned.toLinked id
  rw [Groups.removeMetric_apply, Groups.removeMetric_apply]
  simp only [mirrorWorld, written]
  cases Store.deleteMetric id world.store with
  | error e => exact ⟨rfl, .inl rfl⟩
  | ok result =>
      obtain ⟨found, after⟩ := result
      cases found with
      | true => exact ⟨rfl, rfl⟩
      | false => exact ⟨rfl, .inl rfl⟩

/-! ### Executions -/

theorem listExecutions_same {world : World MemoryStore} (ready : world.store.Mirrorable) :
    CameOutSame .listExecutions (Tracker.findAll world) (Tracker.findAll (mirrorWorld world)) := by
  have read : Store.listMetricExecutions world.store.mirror =
      (Store.listMetricExecutions world.store).map (List.map MetricExecution.settled) :=
    mirror_listMetricExecutions ready.chronological
  exact ⟨rfl, sameAnswer_map .listExecutions _ MetricExecution.map_settled_settled read⟩

theorem findMetricExecution_mirror {s : MemoryStore} (ready : s.Mirrorable) (id : EntityId) :
    Store.findMetricExecution id s.mirror =
      (Store.findMetricExecution id s).map (Option.map MetricExecution.settled) :=
  mirror_findMetricExecution ready.chronological id

theorem findExecution_same {world : World MemoryStore} (ready : world.store.Mirrorable)
    (metricId : EntityId) :
    CameOutSame (.findExecution metricId) (Tracker.findByMetric metricId world)
      (Tracker.findByMetric metricId (mirrorWorld world)) := by
  have read := findMetricExecution_mirror ready metricId
  rw [Tracker.findByMetric_apply, Tracker.findByMetric_apply]
  refine ⟨rfl, sameAnswer_map (.findExecution metricId) _ MetricExecution.settled_settled ?_⟩
  exact (congrArg (Action.required .metricExecution metricId) read).trans (required_map _ _ _ _)

theorem update_same (e : MetricExecution) (world : World MemoryStore) :
    CameOutSame (.updateExecution e) (Tracker.update e world)
      (Tracker.update e (mirrorWorld world)) := by
  have written : Store.updateMetricExecution e world.store.mirror =
      (Store.updateMetricExecution e world.store).map mirrorFound :=
    world.store.mirror_updateMetricExecution e
  rw [Tracker.update_apply, Tracker.update_apply]
  simp only [mirrorWorld, written]
  cases Store.updateMetricExecution e world.store with
  | error fault => exact ⟨rfl, .inl rfl⟩
  | ok result =>
      obtain ⟨found, after⟩ := result
      cases found with
      | true => exact ⟨rfl, rfl⟩
      | false => exact ⟨rfl, .inl rfl⟩

theorem record_same {world : World MemoryStore} (ready : world.store.Mirrorable)
    (policy : TransitionPolicy) (m : Metric) (value : Binary64) :
    CameOutSame (.record m value) (Tracker.record policy m value world)
      (Tracker.record policy m value (mirrorWorld world)) := by
  have read := findMetricExecution_mirror ready m.id
  rw [Tracker.record_apply, Tracker.record_apply]
  simp only [mirrorWorld, read]
  cases Store.findMetricExecution m.id world.store with
  | error e => exact ⟨rfl, .inl rfl⟩
  | ok answer =>
      cases answer with
      | none => exact ⟨rfl, .inl rfl⟩
      | some e => exact update_same (Tracker.afterReading policy m value e) world

end MemoryStore

/-! ### Turns -/

namespace Turn

open MemoryStore

theorem allInsertable_created {turn : Turn} {s : MemoryStore} {g : MetricsGroup}
    (creates : turn.call = .createGroup g) (fresh : turn.DrawsFresh s)
    (valid : g.violations.toResult = .ok ()) :
    s.AllInsertable (Groups.prepare g turn.supply).1.metrics := by
  obtain ⟨call, engine, supply, registry, clock, log⟩ := turn
  cases creates
  have left : (leaves ⟨.createGroup g, engine, supply, registry, clock, log⟩ s).supply =
      (Groups.prepare g supply).2 := by
    have applied := Groups.create_apply g
      (world ⟨.createGroup g, engine, supply, registry, clock, log⟩ s)
    refine (congrArg (fun left => left.2.supply) applied).trans ?_
    rw [valid]
    simp only [world]
    cases Store.insertMetricsGroup (Groups.prepare g supply).1 s <;> rfl
  unfold DrawsFresh draws at fresh
  rw [left] at fresh
  exact allInsertable_prepare fresh.1 fresh.2

theorem execution_new_of_added {turn : Turn} {s : MemoryStore} {groupId : EntityId} {m : Metric}
    {g : MetricsGroup} (adds : turn.call = .addMetric groupId m) (fresh : turn.DrawsFresh s)
    (valid : m.violations.toResult = .ok ())
    (found : Store.findMetricsGroup groupId s = .ok (some g)) :
    (MetricsGroup.adoptMetric g.id g.circleId m turn.supply).1.execution.id ∉
      s.executions.map MetricExecution.id := by
  obtain ⟨call, engine, supply, registry, clock, log⟩ := turn
  cases adds
  have left : (leaves ⟨.addMetric groupId m, engine, supply, registry, clock, log⟩ s).supply =
      (MetricsGroup.adoptMetric g.id g.circleId m supply).2 := by
    have applied := Groups.addMetric_apply groupId m
      (world ⟨.addMetric groupId m, engine, supply, registry, clock, log⟩ s)
    refine (congrArg (fun left => left.2.supply) applied).trans ?_
    simp only [valid, world, found]
    cases Store.insertMetric (MetricsGroup.adoptMetric g.id g.circleId m supply).1 s <;> rfl
  intro stored
  unfold DrawsFresh draws at fresh
  rw [left, MetricsGroup.adoptMetric_draws] at fresh
  exact fresh.2 _ List.mem_cons_self (List.mem_append_right _ stored)

/-- A turn does the same to a store and to its rows. -/
theorem cameOutSame {turn : Turn} {s : MemoryStore} (ready : s.Mirrorable)
    (readyAfter : (turn.next s).Mirrorable) (fresh : turn.DrawsFresh s)
    (noEvaluation : turn.call.evaluates = false) :
    CameOutSame turn.call (turn.call.perform turn.engine (turn.world s))
      (turn.call.perform turn.engine (turn.world s.mirror)) := by
  obtain ⟨call, engine, supply, registry, clock, log⟩ := turn
  cases call with
  | createSource input => exact createSource_same engine input _
  | listSources workspaceId health => exact listSources_same ready workspaceId health
  | findSource id => exact findSource_same ready id
  | decryptSource id => exact decryptSource_same ready engine id
  | deleteSource id => exact deleteSource_same id _
  | setHealth id health => exact setHealth_same id health _
  | parseGroup document =>
      change CameOutSame (.parseGroup document) (Groups.parse document _)
        (Groups.parse document _)
      unfold Groups.parse
      simp only [world]
      cases MetricsGroup.ofDocument? document supply with
      | none => exact ⟨rfl, .inl rfl⟩
      | some read => exact ⟨rfl, rfl⟩
  | createGroup g => exact createGroup_same ready fun valid => allInsertable_created rfl fresh valid
  | listGroups => exact listGroups_same ready
  | findGroup id => exact findGroup_same ready id
  | updateGroup id u => exact updateGroup_same readyAfter
  | deleteGroup id => exact deleteGroup_same ready id
  | addMetric groupId m =>
      exact addMetric_same ready fun valid g found => execution_new_of_added rfl fresh valid found
  | updateMetric m => exact updateMetric_same readyAfter
  | removeMetric id => exact removeMetric_same ready id
  | listExecutions => exact listExecutions_same ready
  | findExecution metricId => exact findExecution_same ready metricId
  | updateExecution e => exact update_same e _
  | record m value => exact record_same ready _ m value
  | evaluate groupId => cases noEvaluation
  | evaluateWith groupId limits => cases noEvaluation
  | closeStore => exact ⟨rfl, rfl⟩

theorem next_mirror {turn : Turn} {s : MemoryStore} (ready : s.Mirrorable)
    (readyAfter : (turn.next s).Mirrorable) (fresh : turn.DrawsFresh s)
    (noEvaluation : turn.call.evaluates = false) :
    turn.next s.mirror = (turn.next s).mirror :=
  congrArg World.store (cameOutSame ready readyAfter fresh noEvaluation).1

end Turn

end RolloutWatch

import RolloutWatch.Proofs.Relational.Keys
import RolloutWatch.Proofs.Service.Adoption

/-!
What the tables of the relational store hold. Every row has been written for an entity, and
every metric names a group that is there, since a group takes its metrics with it. Inserts
say in full what they add and which keys were free.
-/

namespace RolloutWatch

namespace Database

/-- Rows are written for entities, and the groups that metrics name are there. -/
structure WellFormed (db : Database) : Prop where
  groups : ∀ r ∈ db.groups, ∃ g, r = .ofGroup g
  metrics : ∀ r ∈ db.metrics, ∃ m, r = .ofMetric m
  executions : ∀ r ∈ db.executions, ∃ id e, r = .ofExecution id e
  owners : ∀ r ∈ db.metrics, r.metricsGroupId ∈ db.groups.map GroupRow.id

theorem empty_wellFormed : WellFormed empty :=
  { groups := fun _ member => absurd member List.not_mem_nil
    metrics := fun _ member => absurd member List.not_mem_nil
    executions := fun _ member => absurd member List.not_mem_nil
    owners := fun _ member => absurd member List.not_mem_nil }

/-! ### Inserts -/

def executionRowFor (m : Metric) : ExecutionRow :=
  .ofExecution m.id m.execution

def addMetrics (db : Database) (ms : List Metric) : Database :=
  { db with
    metrics := db.metrics ++ ms.map .ofMetric
    executions := db.executions ++ ms.map executionRowFor }

/-- No row has the key of the metric yet. -/
structure Free (db : Database) (m : Metric) : Prop where
  metric : ∀ r ∈ db.metrics, r.id ≠ m.id.text
  owner : ∀ r ∈ db.executions, r.metricId ≠ m.id.text

theorem insertMetric_ok {m : Metric} {db after : Database}
    (written : db.insertMetric m = .ok after) : after = db.addMetrics [m] ∧ db.Free m := by
  unfold insertMetric at written
  simp only [List.any_eq_true, decide_eq_true_eq] at written
  split at written
  · cases written
  · rename_i newMetric
    split at written
    · cases written
    · split at written
      · cases written
      · rename_i newOwner
        cases written
        exact ⟨rfl, fun r stored same => newMetric ⟨r, stored, same⟩,
          fun r stored same => newOwner ⟨r, stored, same⟩⟩

theorem insertMetrics_ok {ms : List Metric} {db after : Database}
    (written : db.insertMetrics ms = .ok after) :
    after = db.addMetrics ms ∧ (ms.map Metric.id).Nodup ∧ ∀ m ∈ ms, db.Free m := by
  induction ms generalizing db with
  | nil =>
      cases written
      refine ⟨?_, List.nodup_nil, fun m member => absurd member List.not_mem_nil⟩
      unfold addMetrics
      simp only [List.map_nil, List.append_nil]
  | cons m rest ih =>
      unfold insertMetrics at written
      cases first : db.insertMetric m with
      | error fault =>
          rw [first] at written
          cases written
      | ok between =>
          rw [first] at written
          obtain ⟨rfl, free⟩ := insertMetric_ok first
          obtain ⟨rfl, distinct, others⟩ := ih written
          refine ⟨?_, List.nodup_cons.mpr ⟨?_, distinct⟩, List.forall_mem_cons.mpr ⟨free, ?_⟩⟩
          · unfold addMetrics
            simp only [List.map_cons, List.map_nil, List.append_assoc, List.singleton_append]
          · intro again
            obtain ⟨other, member, same⟩ := List.mem_map.mp again
            apply (others other member).metric (.ofMetric m)
            · exact List.mem_append_right _ List.mem_cons_self
            · exact congrArg EntityId.text same.symm
          · intro other member
            exact
              { metric := fun r stored =>
                  (others other member).metric r (List.mem_append_left _ stored)
                owner := fun r stored =>
                  (others other member).owner r (List.mem_append_left _ stored) }

def addGroup (db : Database) (g : MetricsGroup) : Database :=
  addMetrics { db with groups := db.groups ++ [.ofGroup g] } g.metrics

theorem WellFormed.addMetrics {db : Database} {ms : List Metric} (formed : WellFormed db)
    (owned : ∀ m ∈ ms, m.metricsGroupId.text ∈ db.groups.map GroupRow.id) :
    WellFormed (db.addMetrics ms) := by
  refine { formed with metrics := ?_, executions := ?_, owners := ?_ }
  · intro r member
    rcases List.mem_append.mp member with stored | added
    · exact formed.metrics r stored
    · obtain ⟨m, -, rfl⟩ := List.mem_map.mp added
      exact ⟨m, rfl⟩
  · intro r member
    rcases List.mem_append.mp member with stored | added
    · exact formed.executions r stored
    · obtain ⟨m, -, rfl⟩ := List.mem_map.mp added
      exact ⟨m.id, m.execution, rfl⟩
  · intro r member
    rcases List.mem_append.mp member with stored | added
    · exact formed.owners r stored
    · obtain ⟨m, new, rfl⟩ := List.mem_map.mp added
      exact owned m new

theorem WellFormed.addGroup {db : Database} {g : MetricsGroup} (formed : WellFormed db)
    (owned : ∀ m ∈ g.metrics, m.metricsGroupId = g.id) : WellFormed (db.addGroup g) := by
  have grouped : WellFormed { db with groups := db.groups ++ [.ofGroup g] } := by
    refine { formed with groups := ?_, owners := ?_ }
    · intro r member
      rcases List.mem_append.mp member with stored | added
      · exact formed.groups r stored
      · exact ⟨g, List.mem_singleton.mp added⟩
    · intro r member
      rw [List.map_append]
      exact List.mem_append_left _ (formed.owners r member)
  apply grouped.addMetrics
  intro m member
  rw [owned m member, List.map_append]
  exact List.mem_append_right _ List.mem_cons_self

/-! ### Other writes -/

theorem WellFormed.removed {db after : Database} (formed : WellFormed db)
    (groups : after.groups.Sublist db.groups) (metrics : after.metrics.Sublist db.metrics)
    (executions : after.executions.Sublist db.executions)
    (owners : ∀ r ∈ after.metrics, r.metricsGroupId ∈ db.groups.map GroupRow.id →
      r.metricsGroupId ∈ after.groups.map GroupRow.id) : WellFormed after :=
  { groups := fun r member => formed.groups r (groups.subset member)
    metrics := fun r member => formed.metrics r (metrics.subset member)
    executions := fun r member => formed.executions r (executions.subset member)
    owners := fun r member => owners r member (formed.owners r (metrics.subset member)) }

theorem WellFormed.groupUpdated {db : Database} (formed : WellFormed db) (id : EntityId)
    (u : MetricsGroupUpdate) :
    WellFormed { db with
      groups := (Store.updateFirst (fun r : GroupRow => r.id = id.text)
        (fun r => { r with name := u.name, circleId := u.circleId.text }) db.groups).2 } := by
  have ids : (Store.updateFirst (fun r : GroupRow => r.id = id.text)
      (fun r => { r with name := u.name, circleId := u.circleId.text }) db.groups).2.map
        GroupRow.id = db.groups.map GroupRow.id := by
    apply Store.map_updateFirst
    intro row
    rfl
  refine { formed with groups := Store.forall_updateFirst formed.groups ?_, owners := ?_ }
  · rintro r ⟨g, rfl⟩
    exact ⟨{ g with name := u.name, circleId := u.circleId }, rfl⟩
  · intro r member
    exact ids ▸ formed.owners r member

theorem WellFormed.metricUpdated {db : Database} (formed : WellFormed db) (m : Metric) :
    WellFormed { db with
      metrics := (Store.updateFirst (fun r : MetricRow => r.id = m.id.text)
        (fun r => r.withDefinitionOf m) db.metrics).2 } := by
  refine
    { formed with
      metrics := Store.forall_updateFirst formed.metrics ?_
      owners := Store.forall_updateFirst formed.owners fun _ owned => owned }
  rintro r ⟨row, rfl⟩
  exact ⟨row.withDefinitionOf m, rfl⟩

end Database

namespace RelationalStore

open Database

theorem insertMetricsGroup_tables {g : MetricsGroup} {s after : RelationalStore}
    (written : insertMetricsGroup g s = .ok after) :
    after = { s with database := s.database.addGroup g } ∧
      (∀ r ∈ s.database.groups, r.id ≠ g.id.text) ∧ (g.metrics.map Metric.id).Nodup ∧
      ∀ m ∈ g.metrics, s.database.Free m := by
  obtain ⟨database, inserted, rfl⟩ := write_ok written
  unfold insertGroup at inserted
  split at inserted
  · cases inserted
  · rename_i grouped
    split at grouped
    · cases grouped
    · rename_i untaken
      cases grouped
      obtain ⟨rfl, distinct, free⟩ := insertMetrics_ok inserted
      refine ⟨rfl, fun r stored same => untaken ?_, distinct, fun m member => ?_⟩
      · exact List.any_eq_true.mpr ⟨r, stored, decide_eq_true same⟩
      · exact { metric := (free m member).metric, owner := (free m member).owner }

theorem insertMetric_tables {m : Metric} {s after : RelationalStore}
    (written : insertMetric m s = .ok after) :
    after = { s with database := s.database.addMetrics [m] } ∧
      m.metricsGroupId.text ∈ s.database.groups.map GroupRow.id ∧ s.database.Free m := by
  obtain ⟨database, inserted, rfl⟩ := write_ok written
  split at inserted
  · rename_i owned
    obtain ⟨rfl, free⟩ := Database.insertMetric_ok inserted
    obtain ⟨r, stored, same⟩ := List.any_eq_true.mp owned
    exact ⟨rfl, List.mem_map.mpr ⟨r, stored, of_decide_eq_true same⟩, free⟩
  · cases inserted

theorem updateMetricExecution_wellFormed {e : MetricExecution} {s after : RelationalStore}
    {found : Bool} (formed : WellFormed s.database)
    (written : updateMetricExecution e s = .ok (found, after)) : WellFormed after.database := by
  obtain ⟨rfl, -⟩ := writeWhere_ok written
  refine { formed with executions := Store.forall_updateFirst formed.executions ?_ }
  rintro r ⟨id, old, rfl⟩
  exact ⟨id, { old with lastValue := e.lastValue, status := e.status }, rfl⟩

theorem executionWrites_wellFormed {s after : RelationalStore} (formed : WellFormed s.database)
    (written : ExecutionWrites s after) : WellFormed after.database := by
  induction written with
  | refl => exact formed
  | tail earlier last ih =>
      obtain ⟨e, found, updated⟩ := last
      exact updateMetricExecution_wellFormed ih updated

theorem executionWrites_tables {s after : RelationalStore} (written : ExecutionWrites s after) :
    ∃ executions, after = { s with database := { s.database with executions } } := by
  induction written with
  | refl => exact ⟨_, rfl⟩
  | tail earlier last ih =>
      obtain ⟨e, found, updated⟩ := last
      obtain ⟨executions, rfl⟩ := ih
      obtain ⟨rfl, -⟩ := writeWhere_ok updated
      exact ⟨_, rfl⟩

/-! ### One turn -/

/-- What a turn can do to the tables. What comes to be stored has been checked, and nothing is
said of keys but what the inserts have found out. -/
inductive TablesChange (turn : Turn) (s : RelationalStore) : Database → Prop where
  | kept : TablesChange turn s s.database
  | sourcesWritten (called : turn.call.writesSources = true) (sources : List SourceRow) :
      TablesChange turn s { s.database with sources }
  | groupAdded (g : MetricsGroup) (checked : g.violations.isEmpty = true)
      (anew : ∀ r ∈ s.database.groups, r.id ≠ (Groups.prepare g turn.supply).1.id.text) :
      TablesChange turn s (s.database.addGroup (Groups.prepare g turn.supply).1)
  | groupUpdated (id : EntityId) (u : MetricsGroupUpdate)
      (checked : u.violations.isEmpty = true) :
      TablesChange turn s
        { s.database with
          groups := (Store.updateFirst (fun r : GroupRow => r.id = id.text)
            (fun r => { r with name := u.name, circleId := u.circleId.text })
            s.database.groups).2 }
  | groupDeleted (id : EntityId) :
      TablesChange turn s
        { removeMetrics (fun r => r.metricsGroupId = id.text) s.database with
          groups := s.database.groups.filter fun r => r.id ≠ id.text }
  | metricAdded (m : Metric) (checked : m.violations.isEmpty = true) (groupId circleId : EntityId)
      (owned : groupId.text ∈ s.database.groups.map GroupRow.id)
      (adopts : ∃ id g, Store.findMetricsGroup id s = .ok (some g) ∧ g.id = groupId ∧
        g.circleId = circleId) :
      TablesChange turn s
        (s.database.addMetrics [(MetricsGroup.adoptMetric groupId circleId m turn.supply).1])
  | metricUpdated (m : Metric) (checked : m.violations.isEmpty = true)
      (called : turn.call = .updateMetric m) (opened : s.closed = false) :
      TablesChange turn s
        { s.database with
          metrics := (Store.updateFirst (fun r : MetricRow => r.id = m.id.text)
            (fun r => r.withDefinitionOf m) s.database.metrics).2 }
  | metricRemoved (id : EntityId) (called : turn.call = .removeMetric id)
      (opened : s.closed = false) :
      TablesChange turn s
        { s.database with
          metrics := s.database.metrics.filter fun r => r.id ≠ id.text
          executions := s.database.executions.filter fun e => e.metricId ≠ id.text }
  | executionsWritten (executions : List ExecutionRow)
      (written : ExecutionWrites s { s with database := { s.database with executions } }) :
      TablesChange turn s { s.database with executions }

theorem tablesChange {s after : RelationalStore} {turn : Turn} (change : Change turn s after) :
    TablesChange turn s after.database := by
  cases change with
  | kept => exact .kept
  | closed => exact .kept
  | sourceCreated input written called =>
      obtain ⟨database, inserted, rfl⟩ := write_ok written
      unfold insertSource at inserted
      split at inserted
      · cases inserted
      · cases inserted
        exact .sourcesWritten (called ▸ rfl) _
  | sourceDeleted id deletedAt written called =>
      obtain ⟨rfl, -⟩ := writeWhere_ok written
      exact .sourcesWritten (called ▸ rfl) _
  | healthSet id health written called =>
      obtain ⟨rfl, -⟩ := writeWhere_ok written
      exact .sourcesWritten (called ▸ rfl) _
  | groupCreated g drawn written checked =>
      obtain ⟨rfl, anew, -, -⟩ := insertMetricsGroup_tables written
      exact .groupAdded g checked anew
  | groupUpdated id u written checked =>
      obtain ⟨rfl, -⟩ := writeWhere_ok written
      exact .groupUpdated id u checked
  | groupDeleted id written =>
      obtain ⟨rfl, -⟩ := writeWhere_ok written
      exact .groupDeleted id
  | metricAdded groupId circleId m drawn written checked adopts =>
      obtain ⟨rfl, owned, -⟩ := insertMetric_tables written
      exact .metricAdded m checked groupId circleId owned adopts
  | metricUpdated m written checked called =>
      obtain ⟨opened, -⟩ := whenOpen_ok written
      obtain ⟨rfl, -⟩ := writeWhere_ok written
      exact .metricUpdated m checked called opened
  | metricRemoved id written called =>
      obtain ⟨opened, -⟩ := whenOpen_ok written
      obtain ⟨rfl, -⟩ := writeWhere_ok written
      exact .metricRemoved id called opened
  | executionsWritten writes written =>
      obtain ⟨executions, rfl⟩ := executionWrites_tables written
      exact .executionsWritten executions written

theorem wellFormed_change {s after : RelationalStore} {turn : Turn}
    (formed : WellFormed s.database) (change : Change turn s after) :
    WellFormed after.database := by
  have tables := tablesChange change
  generalize after.database = database at tables ⊢
  cases tables with
  | kept => exact formed
  | sourcesWritten called sources =>
      exact
        { groups := formed.groups
          metrics := formed.metrics
          executions := formed.executions
          owners := formed.owners }
  | groupAdded g checked anew =>
      exact formed.addGroup fun m member => (Groups.prepare_startsAnew g turn.supply m member).group
  | groupUpdated id u checked => exact formed.groupUpdated id u
  | groupDeleted id =>
      refine formed.removed List.filter_sublist List.filter_sublist List.filter_sublist ?_
      intro r member owned
      obtain ⟨g, stored, same⟩ := List.mem_map.mp owned
      have stays := (List.mem_filter.mp member).2
      refine List.mem_map.mpr ⟨g, List.mem_filter.mpr ⟨stored, ?_⟩, same⟩
      rw [same]
      exact decide_eq_true (of_decide_eq_false ((Bool.not_eq_true' _).mp stays))
  | metricAdded m checked groupId circleId owned adopts =>
      exact formed.addMetrics (List.forall_mem_singleton.mpr owned)
  | metricUpdated m checked called opened => exact formed.metricUpdated m
  | metricRemoved id called opened =>
      exact formed.removed (List.Sublist.refl _) List.filter_sublist List.filter_sublist
        fun _ _ owned => owned
  | executionsWritten executions written => exact executionWrites_wellFormed formed written

theorem groupKeys_change {s after : RelationalStore} {turn : Turn}
    (distinct : (s.database.groups.map GroupRow.id).Nodup) (change : Change turn s after) :
    (after.database.groups.map GroupRow.id).Nodup := by
  have tables := tablesChange change
  generalize after.database = database at tables ⊢
  cases tables with
  | groupAdded g checked anew =>
      unfold addGroup addMetrics
      refine Store.nodup_concat distinct fun stored => ?_
      obtain ⟨r, present, same⟩ := List.mem_map.mp stored
      exact anew r present same
  | groupUpdated id u checked =>
      have same : (Store.updateFirst (fun r : GroupRow => r.id = id.text)
          (fun r => { r with name := u.name, circleId := u.circleId.text })
          s.database.groups).2.map GroupRow.id = s.database.groups.map GroupRow.id := by
        apply Store.map_updateFirst
        intro row
        rfl
      exact same ▸ distinct
  | groupDeleted id => exact distinct.sublist (List.filter_sublist.map _)
  | _ => exact distinct

end RelationalStore

end RolloutWatch

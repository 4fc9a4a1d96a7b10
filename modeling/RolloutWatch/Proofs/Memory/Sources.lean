import RolloutWatch.Proofs.Memory.Ownership
import RolloutWatch.Proofs.Time.RowText

/-!
The data sources of the store in memory. A source comes to be stored under an identifier of
its own and with a reading of the clock, and it keeps both, hidden or not.
-/

namespace RolloutWatch

namespace DataSource

def identity (source : DataSource) : EntityId × Instant :=
  (source.id, source.createdAt)

end DataSource

namespace MemoryStore

/-- Data sources have identifiers of their own and times of creation in common years. -/
structure SourcesDated (s : MemoryStore) : Prop where
  ids : (s.sources.map DataSource.id).Nodup
  common : ∀ source ∈ s.sources, source.createdAt.InCommonYears

theorem SourcesDated.of_identities {s after : MemoryStore} (dated : SourcesDated s)
    (same : after.sources.map DataSource.identity = s.sources.map DataSource.identity) :
    SourcesDated after := by
  have ids := congrArg (List.map Prod.fst) same
  rw [List.map_map, List.map_map] at ids
  refine { ids := ids ▸ dated.ids, common := ?_ }
  intro source stored
  have known : source.identity ∈ s.sources.map DataSource.identity :=
    same ▸ List.mem_map_of_mem stored
  obtain ⟨earlier, present, identical⟩ := List.mem_map.mp known
  have time : earlier.createdAt = source.createdAt := congrArg Prod.snd identical
  exact time ▸ dated.common earlier present

theorem changeSource_identities {id : EntityId} (change : DataSource → DataSource)
    {s after : MemoryStore} {found : Bool}
    (keeps : ∀ source, (change source).identity = source.identity)
    (written : s.changeSource id change = .ok (found, after)) :
    after.sources.map DataSource.identity = s.sources.map DataSource.identity := by
  obtain ⟨_, result⟩ := whenOpen_ok written
  cases result
  exact Store.map_updateFirst _ _ _ keeps _

theorem insertDataSource_new {source : DataSource} {s after : MemoryStore}
    (written : insertDataSource source s = .ok after) :
    source.id ∉ s.sources.map DataSource.id ∧ after.sources = s.sources ++ [source] := by
  obtain ⟨_, result⟩ := whenOpen_ok written
  split at result
  · cases result
  · rename_i untaken
    cases result
    refine ⟨?_, rfl⟩
    intro stored
    obtain ⟨other, present, same⟩ := List.mem_map.mp stored
    exact untaken (List.any_eq_true.mpr ⟨other, present, decide_eq_true same⟩)

theorem executionWrites_sources {s after : MemoryStore} (written : ExecutionWrites s after) :
    after.sources = s.sources := by
  obtain ⟨executions, rfl⟩ := executionWrites_tables written
  rfl

theorem SourcesDated.insert {s after : MemoryStore} {source : DataSource}
    (dated : SourcesDated s) (common : source.createdAt.InCommonYears)
    (written : insertDataSource source s = .ok after) : SourcesDated after := by
  obtain ⟨fresh, sources⟩ := insertDataSource_new written
  constructor
  · rw [sources]
    exact Store.nodup_concat dated.ids fresh
  · intro other member
    rw [sources] at member
    rcases List.mem_append.mp member with stored | added
    · exact dated.common other stored
    · rw [List.mem_singleton.mp added]
      exact common

/-- What a turn can do to the data sources: nothing, or one of the writes that are about them. -/
inductive SourcesChange (turn : Turn) (s : MemoryStore) : MemoryStore → Prop where
  | kept {after : MemoryStore} (same : after.sources = s.sources) : SourcesChange turn s after
  | created (input : NewDataSource) {after : MemoryStore}
      (written :
        insertDataSource (Sources.prepare turn.engine input turn.supply).1 s = .ok after)
      (called : turn.call = .createSource input) : SourcesChange turn s after
  | deleted (id : EntityId) (deletedAt : Instant) {found : Bool} {after : MemoryStore}
      (written : softDeleteDataSource id deletedAt s = .ok (found, after))
      (called : turn.call = .deleteSource id) : SourcesChange turn s after
  | healthSet (id : EntityId) (health : Health) {found : Bool} {after : MemoryStore}
      (written : setDataSourceHealth id health s = .ok (found, after))
      (called : turn.call = .setHealth id health) : SourcesChange turn s after

theorem sourcesChange {s after : MemoryStore} {turn : Turn} (change : Change turn s after) :
    SourcesChange turn s after := by
  cases change with
  | kept => exact .kept rfl
  | closed => exact .kept rfl
  | sourceCreated input written called => exact .created input written called
  | sourceDeleted id deletedAt written called => exact .deleted id deletedAt written called
  | healthSet id health written called => exact .healthSet id health written called
  | groupCreated g drawn written =>
      obtain ⟨-, -, -, rfl⟩ := insertMetricsGroup_tables written
      exact .kept rfl
  | groupUpdated id u written =>
      obtain ⟨_, result⟩ := whenOpen_ok written
      cases result
      exact .kept rfl
  | groupDeleted id written =>
      rcases deleteMetricsGroup_tables written with rfl | rfl <;> exact .kept rfl
  | metricAdded groupId circleId m drawn written =>
      obtain ⟨-, -, rfl⟩ := insertMetric_tables written
      exact .kept rfl
  | metricUpdated m written =>
      obtain ⟨_, result⟩ := whenOpen_ok written
      cases result
      exact .kept rfl
  | metricRemoved id written =>
      rw [deleteMetric_tables written]
      exact .kept rfl
  | executionsWritten writes written => exact .kept (executionWrites_sources written)

theorem SourcesDated.change {s after : MemoryStore} {turn : Turn} (dated : SourcesDated s)
    (clock : ∀ t, turn.supply.Reads t → t.InCommonYears) (change : Change turn s after) :
    SourcesDated after := by
  cases sourcesChange change with
  | kept same => exact dated.of_identities (congrArg _ same)
  | created input written => exact dated.insert (clock _ ⟨_, Nat.le_refl _, rfl⟩) written
  | deleted id deletedAt written =>
      exact dated.of_identities (changeSource_identities
        (fun source => { source with deletedAt := some deletedAt }) (fun _ => rfl) written)
  | healthSet id health written =>
      exact dated.of_identities (changeSource_identities
        (fun source => { source with health }) (fun _ => rfl) written)

theorem empty_sourcesDated : SourcesDated empty :=
  { ids := List.nodup_nil
    common := fun _ stored => absurd stored List.not_mem_nil }

end MemoryStore

end RolloutWatch

import RolloutWatch.Proofs.Evaluation.MissingSource
import RolloutWatch.Proofs.Evaluation.Success
import RolloutWatch.Proofs.Memory.Catalogue
import RolloutWatch.Proofs.Relational.Catalogue

/-!
The life of a data source. It is stored once and for all with what it has been created with;
only its health and its deletion are written later, its health by successful calls that set it.
Once it is deleted, nothing finds it any more, and no deletion is taken back.
-/

namespace RolloutWatch

variable {σ : Type} [Store σ]

/-- No service knows a source with the identifier. -/
structure SourceGone (id : EntityId) (s : σ) : Prop where
  find (world : World σ) (here : world.store = s) :
    (Sources.find id world).1 = .error (.notFound .dataSource id)
  decrypt (engine : Engine) (world : World σ) (here : world.store = s) :
    (Sources.findDecrypted engine id world).1 = .error (.notFound .dataSource id)
  setHealth (health : Health) (world : World σ) (here : world.store = s) :
    (Sources.setHealth id health world).1 = .error (.notFound .dataSource id)
  delete (world : World σ) (here : world.store = s) :
    (Sources.delete id world).1 = .error (.notFound .dataSource id)
  list (workspaceId : EntityId) (health : Option Health) (world : World σ) (here : world.store = s)
    (listed : List DataSource) (answered : (Sources.list workspaceId health world).1 = .ok listed) :
    ∀ source ∈ listed, source.id ≠ id
  /-- An evaluation fails and changes nothing, or the metrics that name the source are left
  without an answer. -/
  evaluated (engine : Engine) (groupId : EntityId) (limits : QueryPhase.Limits) (world : World σ)
    (here : world.store = s) :
    (∃ fault, (Evaluation.evaluateWith engine groupId limits world).1 = .error fault ∧
        (Evaluation.evaluateWith engine groupId limits world).2.store = s) ∨
      ∃ report g, (Evaluation.evaluateWith engine groupId limits world).1 = .ok report ∧
        Store.findMetricsGroup groupId s = .ok (some g) ∧
        ∀ m ∈ g.metrics, m.dataSourceId = id →
          Evaluation.Unanswered engine s
            (Evaluation.evaluateWith engine groupId limits world).2.store report g m

/-- What becomes of the sources that are created and deleted in a store, in all the runs that are
possible afterwards. -/
structure SourceLifecycle (holds : DataSource → σ → Prop) (opened : σ → Prop)
    (possible : List Turn → σ → Prop) (s : σ) : Prop where
  created (engine : Engine) (input : NewDataSource) (world after : World σ) (source : DataSource)
    (here : world.store = s) (succeeded : Sources.create engine input world = (.ok source, after)) :
    source.health = .unknown ∧ source.deletedAt = none ∧
      ∀ later, possible later after.store →
        ∃ deletedAt,
          holds
            { source with
              health := Turn.healthAfter source.id later after.store .unknown
              deletedAt }
            (Turn.run later after.store)
  deleted (id : EntityId) (world after : World σ) (here : world.store = s)
    (succeeded : Sources.delete id world = (.ok (), after)) :
    ∀ later, possible later after.store → opened (Turn.run later after.store) →
      SourceGone id (Turn.run later after.store)

namespace Sources

theorem create_ok {engine : Engine} {input : NewDataSource} {world after : World σ}
    {source : DataSource} (succeeded : create engine input world = (.ok source, after)) :
    source = (prepare engine input world.supply).1 ∧
      Store.insertDataSource source world.store = .ok after.store := by
  rw [create_apply] at succeeded
  cases checked : input.violations.toResult with
  | error fault =>
      rw [checked] at succeeded
      cases succeeded
  | ok valid =>
      rw [checked] at succeeded
      simp only at succeeded
      cases written : Store.insertDataSource (prepare engine input world.supply).1 world.store with
      | error fault =>
          rw [written] at succeeded
          cases succeeded
      | ok store =>
          rw [written] at succeeded
          cases succeeded
          exact ⟨rfl, written⟩

theorem delete_ok {id : EntityId} {world after : World σ}
    (succeeded : delete id world = (.ok (), after)) :
    ∃ deletedAt, Store.softDeleteDataSource id deletedAt world.store = .ok (true, after.store) := by
  rw [delete_apply] at succeeded
  refine ⟨world.supply.now.1, ?_⟩
  simp only at succeeded
  cases written : Store.softDeleteDataSource id world.supply.now.1 world.store with
  | error fault =>
      rw [written] at succeeded
      cases succeeded
  | ok result =>
      obtain ⟨found, store⟩ := result
      rw [written] at succeeded
      cases found with
      | false => cases succeeded
      | true =>
          cases succeeded
          rfl

end Sources

namespace KeepsSources

variable {keeps : σ → List DataSource → Prop} {opened : σ → Prop} {s : σ}
  {sources : List DataSource}

/-- A source that is deleted has gone, as long as the store is open. -/
theorem gone (laws : KeepsSources keeps opened) (kept : keeps s sources) (isOpen : opened s)
    {id : EntityId} (dead : sources.any (DataSource.isLive id) = false)
    {apply : TransitionPolicy → List Recording → σ → σ} (evaluable : Evaluable apply s) :
    SourceGone id s := by
  have absent := laws.absent kept isOpen dead
  constructor
  case find =>
    rintro world rfl
    rw [Sources.find_apply, absent]
    rfl
  case decrypt =>
    rintro engine world rfl
    rw [Sources.findDecrypted_apply, absent]
    rfl
  case setHealth =>
    rintro health world rfl
    rw [Sources.setHealth_apply]
    rcases laws.health kept id health with ⟨closed, -⟩ | ⟨after, written, -⟩
    · exact absurd isOpen closed
    · rw [written, dead]
      rfl
  case delete =>
    rintro world rfl
    rw [Sources.delete_apply]
    simp only
    rcases laws.deletion kept id world.supply.now.1 with ⟨closed, -⟩ | ⟨after, written, -⟩
    · exact absurd isOpen closed
    · rw [written, dead]
      rfl
  case list =>
    rintro workspaceId health world rfl listed answered source member rfl
    have live := laws.listed kept answered source member
    exact Bool.false_ne_true (dead.symm.trans live)
  case evaluated =>
    rintro engine groupId limits world here
    exact (Evaluation.evaluateWith_evaluates engine groupId limits world).of_missing evaluable
      absent here

/-- What a store does with the sources that it keeps settles their life, if evaluations have their
effect in every store that a run leads to. -/
theorem lifecycle (laws : KeepsSources keeps opened) (kept : keeps s sources)
    {holds : DataSource → σ → Prop} {possible : List Turn → σ → Prop}
    (single : ∀ {s : σ} {sources : List DataSource} {source : DataSource}, keeps s sources →
      source ∈ sources → holds source s)
    {apply : TransitionPolicy → List Recording → σ → σ}
    (evaluable : ∀ {id : EntityId} {deletedAt : Instant} {found : Bool} {after : σ},
      Store.softDeleteDataSource id deletedAt s = .ok (found, after) →
      ∀ later, possible later after → Evaluable apply (Turn.run later after)) :
    SourceLifecycle holds opened possible s where
  created := by
    rintro engine input world after source rfl succeeded
    obtain ⟨prepared, written⟩ := Sources.create_ok succeeded
    have unknown : source.health = .unknown := by
      rw [prepared]
      rfl
    refine ⟨unknown, ?_, fun later _ => ?_⟩
    · rw [prepared]
      rfl
    · have inserted := laws.inserted kept written
      obtain ⟨final, deletedAt, keptLater, stored⟩ :=
        laws.run inserted (List.mem_append_right _ (List.mem_singleton_self source)) later
      rw [unknown] at stored
      exact ⟨deletedAt, single keptLater stored⟩
  deleted := by
    rintro id world after rfl succeeded later possibleLater isOpen
    obtain ⟨deletedAt, written⟩ := Sources.delete_ok succeeded
    rcases laws.deletion kept id deletedAt with ⟨-, fault, refused⟩ | ⟨store, deletion, marked⟩
    · rw [written] at refused
      cases refused
    · rw [written] at deletion
      obtain ⟨live, here⟩ := Prod.mk.inj (Except.ok.inj deletion)
      rw [← here] at marked
      have dead := Deleted.of_marked (laws.distinct kept) live.symm deletedAt
      obtain ⟨final, keptLater, stays⟩ := laws.run_deleted marked dead later
      exact laws.gone keptLater isOpen stays.dead (evaluable written later possibleLater)

end KeepsSources

namespace MemoryStore

def HasSource (source : DataSource) (s : MemoryStore) : Prop :=
  source ∈ s.sources ∧ ∀ other ∈ s.sources, other.id = source.id → other = source

theorem Catalogued.hasSource {s : MemoryStore} {sources : List DataSource} {source : DataSource}
    (kept : Catalogued s sources) (stored : source ∈ sources) : HasSource source s := by
  obtain ⟨rfl, distinct⟩ := kept
  exact ⟨stored, fun other present same =>
    List.inj_on_of_nodup_map distinct present stored same⟩

theorem Owned.softDelete {s after : MemoryStore} (owned : Owned s) {id : EntityId}
    {deletedAt : Instant} {found : Bool}
    (written : Store.softDeleteDataSource id deletedAt s = .ok (found, after)) : Owned after := by
  obtain ⟨sources, rfl⟩ := changeSource_tables written
  exact owned.of_links rfl

end MemoryStore

namespace RelationalStore

open Database

def HasSource (source : DataSource) (s : RelationalStore) : Prop :=
  .ofSource source ∈ s.database.sources ∧
    ∀ r ∈ s.database.sources, r.id = source.id.text → r = .ofSource source

theorem Catalogued.hasSource {s : RelationalStore} {sources : List DataSource}
    {source : DataSource} (kept : Catalogued s sources) (stored : source ∈ sources) :
    HasSource source s := by
  unfold HasSource
  rw [kept.stored]
  refine ⟨List.mem_map_of_mem stored, fun r present same => ?_⟩
  obtain ⟨other, known, rfl⟩ := List.mem_map.mp present
  exact congrArg SourceRow.ofSource
    (List.inj_on_of_nodup_map kept.distinct known stored (EntityId.text_injective same))

theorem evaluable_softDelete {s after : RelationalStore} (keys : UniqueKeys s.database)
    (formed : WellFormed s.database) {id : EntityId} {deletedAt : Instant} {found : Bool}
    (written : Store.softDeleteDataSource id deletedAt s = .ok (found, after))
    (later : List Turn) : Evaluable applyReadings (Turn.run later after) := by
  have start : UniqueKeys after.database ∧ WellFormed after.database := by
    obtain ⟨rfl, -⟩ := writeWhere_ok written
    exact
      ⟨keys.sublist (List.Sublist.refl _) (List.Sublist.refl _),
        { groups := formed.groups
          metrics := formed.metrics
          executions := formed.executions
          owners := formed.owners }⟩
  obtain ⟨keysLater, formedLater⟩ := @Turn.invariant_run RelationalStore _
    (fun s => UniqueKeys s.database ∧ WellFormed s.database)
    (fun turn s invariant =>
      ⟨uniqueKeys_change invariant.1 (turn.change s), wellFormed_change invariant.2 (turn.change s)⟩)
    later _ start
  exact evaluable keysLater formedLater

end RelationalStore

/-- Whatever the services have done before, the sources that they create and delete have this life,
whatever they do afterwards. -/
theorem data_source_lifecycle :
    (∀ earlier : List Turn, Turn.FreshRun earlier .empty →
      SourceLifecycle MemoryStore.HasSource MemoryStore.IsOpen Turn.FreshRun
        (Turn.run earlier .empty)) ∧
    ∀ s : RelationalStore, s.Reachable →
      SourceLifecycle RelationalStore.HasSource RelationalStore.IsOpen (fun _ _ => True) s := by
  constructor
  · intro earlier fresh
    have owned := MemoryStore.empty_owned.run fresh
    exact MemoryStore.keepsSources.lifecycle (MemoryStore.catalogued_run earlier)
      (fun kept stored => kept.hasSource stored)
      fun written later freshLater => ((owned.softDelete written).run freshLater).evaluable
  · intro s reachable
    obtain ⟨sources, kept⟩ := reachable.catalogued
    exact RelationalStore.keepsSources.lifecycle kept (fun kept stored => kept.hasSource stored)
      fun written later _ =>
        RelationalStore.evaluable_softDelete reachable.uniqueKeys reachable.wellFormed written later

/-! ### A canary's source -/

section

open Evaluation (sealingEngine answeringSource)

def sourceTurns : List Turn :=
  [{ Canary.turn (.createSource answeringSource) 1 with engine := sealingEngine },
    Canary.turn (.createGroup Canary.group) 100]

def sourceWorld (turns : List Turn) (start : σ) : World σ :=
  (Canary.turn .listGroups 1).world (Turn.run turns start)

theorem sourceWorld_store (turns : List Turn) (start : σ) :
    (sourceWorld turns start).store = Turn.run turns start :=
  rfl

def setsHealth : Turn :=
  Canary.turn (.setHealth (.ofNat 1) .healthy) 50

variable {holds : DataSource → σ → Prop} {opened : σ → Prop} {possible : List Turn → σ → Prop}
  {start : σ}

theorem SourceLifecycle.of_created {turns : List Turn}
    (life : SourceLifecycle holds opened possible (Turn.run turns start))
    (ids : (Sources.create sealingEngine answeringSource (sourceWorld turns start)).1.map
      DataSource.id = .ok (.ofNat 1))
    (possibleLater : possible [setsHealth]
      (Sources.create sealingEngine answeringSource (sourceWorld turns start)).2.store)
    (health : Turn.healthAfter (.ofNat 1) [setsHealth]
      (Sources.create sealingEngine answeringSource (sourceWorld turns start)).2.store .unknown =
        .healthy) :
    ∃ source after deletedAt,
      Sources.create sealingEngine answeringSource (sourceWorld turns start) =
          (.ok source, after) ∧
        holds { source with health := .healthy, deletedAt } (Turn.run [setsHealth] after.store) := by
  rcases created : Sources.create sealingEngine answeringSource (sourceWorld turns start) with
    ⟨answer, after⟩
  rw [created] at ids possibleLater health
  cases answer with
  | error fault => cases ids
  | ok source =>
      obtain ⟨-, -, lives⟩ := life.created _ _ _ after source (sourceWorld_store _ _) created
      obtain ⟨deletedAt, stored⟩ := lives [setsHealth] possibleLater
      rw [← Except.ok.inj ids] at health
      rw [health] at stored
      exact ⟨source, after, deletedAt, rfl, stored⟩

theorem SourceLifecycle.of_deleted {turns : List Turn}
    (life : SourceLifecycle holds opened possible (Turn.run turns start)) {id : EntityId}
    (succeeds : (Sources.delete id (sourceWorld turns start)).1.isOk = true) {later : List Turn}
    (possibleLater : possible later (Sources.delete id (sourceWorld turns start)).2.store)
    (isOpen : opened (Turn.run later (Sources.delete id (sourceWorld turns start)).2.store)) :
    ∃ after, Sources.delete id (sourceWorld turns start) = (.ok (), after) ∧
      SourceGone id (Turn.run later after.store) := by
  obtain ⟨_, after, deleted⟩ := Action.exists_ok succeeds
  rw [deleted] at possibleLater isOpen
  exact ⟨after, deleted,
    life.deleted id _ after (sourceWorld_store _ _) deleted later possibleLater isOpen⟩

/-- The canary's source becomes healthy after its creation, and has gone after its deletion. -/
theorem canary_source_lifecycle :
    ((∃ source after deletedAt,
        Sources.create sealingEngine answeringSource (sourceWorld [] MemoryStore.empty) =
            (.ok source, after) ∧
          MemoryStore.HasSource { source with health := .healthy, deletedAt }
            (Turn.run [setsHealth] after.store)) ∧
      ∃ after,
        Sources.delete (.ofNat 1) (sourceWorld sourceTurns MemoryStore.empty) =
            (.ok (), after) ∧
          SourceGone (.ofNat 1) (Turn.run [Canary.addsLater] after.store)) ∧
    (∃ source after deletedAt,
        Sources.create sealingEngine answeringSource
            (sourceWorld [] (RelationalStore.onDatabase .empty)) = (.ok source, after) ∧
          RelationalStore.HasSource { source with health := .healthy, deletedAt }
            (Turn.run [setsHealth] after.store)) ∧
      ∃ after,
        Sources.delete (.ofNat 1)
            (sourceWorld sourceTurns (RelationalStore.onDatabase .empty)) = (.ok (), after) ∧
          SourceGone (.ofNat 1) (Turn.run [Canary.addsLater] after.store) := by
  obtain ⟨inMemory, inDatabase⟩ := data_source_lifecycle
  refine ⟨⟨(inMemory [] trivial).of_created ?_ ?_ ?_,
      (inMemory sourceTurns ?_).of_deleted ?_ ?_ ?_⟩,
    (inDatabase (Turn.run [] _) .created).of_created ?_ trivial ?_,
    (inDatabase (Turn.run sourceTurns _) (.next _ (.next _ .created))).of_deleted
      ?_ trivial ?_⟩
  all_goals decide +kernel

end

end RolloutWatch

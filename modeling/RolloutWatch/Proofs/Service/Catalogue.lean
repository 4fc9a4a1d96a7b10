import RolloutWatch.Proofs.Service.Change
import RolloutWatch.Proofs.Store.Rows

/-!
The data sources that a store keeps, deleted ones included. The services add a source under an
identifier of its own, set the health of one that is not deleted, and mark one as deleted. What a
turn does to a source depends on the turn and on whether it succeeds, so that a run can be followed
source by source, in whatever kind of rows a store keeps them.
-/

namespace RolloutWatch

namespace DataSource

def isLive (id : EntityId) (source : DataSource) : Bool :=
  source.id = id && !source.isDeleted

def after (turn : Turn) (succeeded : Bool) (source : DataSource) : DataSource :=
  match turn.call, succeeded with
  | .setHealth id health, true => if source.id = id then { source with health } else source
  | .deleteSource id, true =>
      if source.id = id then { source with deletedAt := some turn.supply.now.1 } else source
  | _, _ => source

end DataSource

namespace Turn

def newSources (turn : Turn) (succeeded : Bool) : List DataSource :=
  match turn.call, succeeded with
  | .createSource input, true => [(Sources.prepare turn.engine input turn.supply).1]
  | _, _ => []

def sourcesAfter (turn : Turn) (succeeded : Bool) (sources : List DataSource) :
    List DataSource :=
  sources.map (DataSource.after turn succeeded) ++ turn.newSources succeeded

def healthGiven (id : EntityId) (turn : Turn) (succeeded : Bool) : Option Health :=
  match turn.call, succeeded with
  | .setHealth other health, true => if id = other then some health else none
  | _, _ => none

/-- The health of the source with an identifier after a run: the last one that the run has given
it, or the one that it had before. -/
def healthAfter {σ : Type} [Store σ] (id : EntityId) : List Turn → σ → Health → Health
  | [], _, health => health
  | turn :: rest, s, health =>
      healthAfter id rest (turn.next s)
        ((turn.healthGiven id (turn.answer s).isOk).getD health)

end Turn

namespace DataSource

variable {turn : Turn} {succeeded : Bool}

theorem after_id (source : DataSource) : (source.after turn succeeded).id = source.id := by
  unfold after
  split <;> first | rfl | (split <;> rfl)

theorem after_failed (source : DataSource) : source.after turn false = source := by
  unfold after
  split
  · rename_i impossible
    cases impossible
  · rename_i impossible
    cases impossible
  · rfl

theorem after_others (others : turn.call.writesSources = false) (source : DataSource) :
    source.after turn succeeded = source := by
  obtain ⟨call, engine, supply, registry, clock, log⟩ := turn
  unfold after
  cases call <;> first | rfl | cases others

/-- A turn changes nothing of a source but its health and whether it is deleted. -/
theorem after_eq (turn : Turn) (succeeded : Bool) (source : DataSource) :
    ∃ deletedAt, source.after turn succeeded =
      { source with
        health := (turn.healthGiven source.id succeeded).getD source.health
        deletedAt } := by
  unfold after Turn.healthGiven
  cases succeeded with
  | false => cases turn.call <;> exact ⟨source.deletedAt, rfl⟩
  | true =>
      cases turn.call with
      | setHealth id health =>
          by_cases same : source.id = id
          · exact ⟨source.deletedAt, by simp only [same, if_true, Option.getD_some]⟩
          · exact ⟨source.deletedAt, by simp only [same, if_false, Option.getD_none]⟩
      | deleteSource id =>
          by_cases same : source.id = id
          · exact ⟨some turn.supply.now.1, if_pos same⟩
          · exact ⟨source.deletedAt, if_neg same⟩
      | _ => exact ⟨source.deletedAt, rfl⟩

/-- A deleted source stays deleted. -/
theorem isDeleted_after {source : DataSource} (deleted : source.isDeleted = true) :
    (source.after turn succeeded).isDeleted = true := by
  unfold after
  split
  · split <;> exact deleted
  · split
    · rfl
    · exact deleted
  · exact deleted

theorem isLive_eq_false {id : EntityId} {sources : List DataSource} :
    sources.any (isLive id) = false ↔
      ∀ source ∈ sources, source.id = id → source.isDeleted = true := by
  simp only [List.any_eq_false, isLive, Bool.and_eq_true, decide_eq_true_eq, Bool.not_eq_true',
    not_and, Bool.not_eq_false]

end DataSource

structure KeepsSources {σ : Type} [Store σ] (keeps : σ → List DataSource → Prop)
    (opened : σ → Prop) : Prop where
  distinct {s : σ} {sources : List DataSource} (kept : keeps s sources) :
    (sources.map DataSource.id).Nodup
  inserted {s after : σ} {sources : List DataSource} {source : DataSource}
    (kept : keeps s sources) (written : Store.insertDataSource source s = .ok after) :
    keeps after (sources ++ [source])
  health {s : σ} {sources : List DataSource} (kept : keeps s sources) (id : EntityId)
    (health : Health) :
    (¬opened s ∧ ∃ fault, Store.setDataSourceHealth id health s = .error fault) ∨
      ∃ after, Store.setDataSourceHealth id health s =
          .ok (sources.any (DataSource.isLive id), after) ∧
        keeps after
          (Store.updateFirst (DataSource.isLive id) (fun source => { source with health })
            sources).2
  deletion {s : σ} {sources : List DataSource} (kept : keeps s sources) (id : EntityId)
    (deletedAt : Instant) :
    (¬opened s ∧ ∃ fault, Store.softDeleteDataSource id deletedAt s = .error fault) ∨
      ∃ after, Store.softDeleteDataSource id deletedAt s =
          .ok (sources.any (DataSource.isLive id), after) ∧
        keeps after
          (Store.updateFirst (DataSource.isLive id)
            (fun source => { source with deletedAt := some deletedAt }) sources).2
  others {s : σ} {sources : List DataSource} (kept : keeps s sources) {turn : Turn}
    (others : turn.call.writesSources = false) : keeps (turn.next s) sources
  absent {s : σ} {sources : List DataSource} (kept : keeps s sources) (isOpen : opened s)
    {id : EntityId} (dead : sources.any (DataSource.isLive id) = false) :
    Store.findDataSource id s = .ok none
  listed {s : σ} {sources : List DataSource} (kept : keeps s sources) {workspaceId : EntityId}
    {health : Option Health} {listed : List DataSource}
    (answered : Store.listDataSources workspaceId health s = .ok listed) :
    ∀ source ∈ listed, sources.any (DataSource.isLive source.id) = true

namespace KeepsSources

variable {σ : Type} [Store σ] {keeps : σ → List DataSource → Prop} {opened : σ → Prop}
  {s : σ} {sources : List DataSource}

theorem updateFirst_isLive (distinct : (sources.map DataSource.id).Nodup) {id : EntityId}
    (live : sources.any (DataSource.isLive id) = true) (change : DataSource → DataSource) :
    (Store.updateFirst (DataSource.isLive id) change sources).2 =
      sources.map fun source => if source.id = id then change source else source :=
  Store.updateFirst_and_of_nodup DataSource.id id (fun source => !source.isDeleted) change
    distinct live

theorem updateFirst_dead {id : EntityId} (dead : sources.any (DataSource.isLive id) = false)
    (change : DataSource → DataSource) :
    (Store.updateFirst (DataSource.isLive id) change sources).2 = sources :=
  Store.updateFirst_of_not_found _ _ _ ((Store.updateFirst_found _ _ _).trans dead)

theorem sourcesAfter_failed (turn : Turn) (sources : List DataSource) :
    turn.sourcesAfter false sources = sources := by
  have none : turn.newSources false = [] := by
    unfold Turn.newSources
    split
    · rename_i impossible
      cases impossible
    · rfl
  unfold Turn.sourcesAfter
  rw [none, List.append_nil, List.map_congr_left fun source _ => source.after_failed, List.map_id']

theorem sourcesAfter_others {turn : Turn} (others : turn.call.writesSources = false)
    (succeeded : Bool) (sources : List DataSource) :
    turn.sourcesAfter succeeded sources = sources := by
  have none : turn.newSources succeeded = [] := by
    unfold Turn.newSources
    split
    · rename_i called
      rw [called] at others
      cases others
    · rfl
  unfold Turn.sourcesAfter
  rw [none, List.append_nil,
    List.map_congr_left fun source _ => DataSource.after_others others source, List.map_id']

private theorem changed {change : DataSource → DataSource} (turn : Turn)
    (distinct : (sources.map DataSource.id).Nodup) {id : EntityId}
    (changes : turn.sourcesAfter true sources =
      sources.map fun source => if source.id = id then change source else source) :
    (Store.updateFirst (DataSource.isLive id) change sources).2 =
      turn.sourcesAfter (sources.any (DataSource.isLive id)) sources := by
  cases live : sources.any (DataSource.isLive id) with
  | false => rw [updateFirst_dead live, sourcesAfter_failed]
  | true => rw [updateFirst_isLive distinct live, changes]

/-- A turn leaves the sources as they are after it. The cases are the calls that are about
sources, and in each of them the service's equation. -/
theorem next (laws : KeepsSources keeps opened) (kept : keeps s sources) (turn : Turn) :
    keeps (turn.next s) (turn.sourcesAfter (turn.answer s).isOk sources) := by
  obtain ⟨call, engine, supply, registry, clock, log⟩ := turn
  have unchanged {left : Turn} : keeps s (left.sourcesAfter false sources) := by
    rw [sourcesAfter_failed]
    exact kept
  cases call with
  | createSource input =>
      unfold Turn.next Turn.leaves Turn.answer
      change keeps (Sources.create engine input _).2.store
        (Turn.sourcesAfter _ (Sources.create engine input _).1.isOk sources)
      rw [Sources.create_apply]
      cases input.violations.toResult with
      | error e => exact unchanged
      | ok valid =>
          simp only [Turn.world]
          cases written : Store.insertDataSource (Sources.prepare engine input supply).1 s with
          | error e => exact unchanged
          | ok after =>
              change keeps after (sources.map id ++ [(Sources.prepare engine input supply).1])
              rw [List.map_id]
              exact laws.inserted kept written
  | deleteSource id =>
      unfold Turn.next Turn.leaves Turn.answer
      change keeps (Sources.delete id _).2.store
        (Turn.sourcesAfter _ (Sources.delete id _).1.isOk sources)
      rw [Sources.delete_apply]
      simp only [Turn.world]
      rcases laws.deletion kept id supply.now.1 with ⟨-, e, refused⟩ | ⟨after, written, keeps⟩
      · rw [refused]
        exact unchanged
      · rw [written]
        rw [changed ⟨.deleteSource id, engine, supply, registry, clock, log⟩
          (laws.distinct kept) (List.append_nil _)] at keeps
        cases live : sources.any (DataSource.isLive id) <;> rw [live] at keeps <;> exact keeps
  | setHealth id health =>
      unfold Turn.next Turn.leaves Turn.answer
      change keeps (Sources.setHealth id health _).2.store
        (Turn.sourcesAfter _ (Sources.setHealth id health _).1.isOk sources)
      rw [Sources.setHealth_apply]
      simp only [Turn.world]
      rcases laws.health kept id health with ⟨-, e, refused⟩ | ⟨after, written, keeps⟩
      · rw [refused]
        exact unchanged
      · rw [written]
        rw [changed ⟨.setHealth id health, engine, supply, registry, clock, log⟩
          (laws.distinct kept) (List.append_nil _)] at keeps
        cases live : sources.any (DataSource.isLive id) <;> rw [live] at keeps <;> exact keeps
  | _ =>
      refine Eq.mpr (congrArg _ (sourcesAfter_others rfl _ sources)) ?_
      exact laws.others kept rfl

/-! ### Runs -/

/-- A stored source stays through a run, with the health that the run gives it. -/
theorem run (laws : KeepsSources keeps opened) (kept : keeps s sources) {source : DataSource}
    (stored : source ∈ sources) (turns : List Turn) :
    ∃ later deletedAt, keeps (Turn.run turns s) later ∧
      { source with
        health := Turn.healthAfter source.id turns s source.health
        deletedAt } ∈ later := by
  induction turns generalizing s sources source with
  | nil => exact ⟨sources, source.deletedAt, kept, stored⟩
  | cons turn rest ih =>
      have stays : source.after turn (turn.answer s).isOk ∈
          turn.sourcesAfter (turn.answer s).isOk sources :=
        List.mem_append_left _ (List.mem_map_of_mem stored)
      obtain ⟨deletedAt, after⟩ := source.after_eq turn (turn.answer s).isOk
      rw [after] at stays
      exact ih (laws.next kept turn) stays

structure Deleted (id : EntityId) (sources : List DataSource) : Prop where
  stored : id ∈ sources.map DataSource.id
  dead : sources.any (DataSource.isLive id) = false

theorem Deleted.of_marked (distinct : (sources.map DataSource.id).Nodup) {id : EntityId}
    (live : sources.any (DataSource.isLive id) = true) (deletedAt : Instant) :
    Deleted id (Store.updateFirst (DataSource.isLive id)
      (fun source => { source with deletedAt := some deletedAt }) sources).2 := by
  constructor
  · have ids : (Store.updateFirst (DataSource.isLive id)
        (fun source => { source with deletedAt := some deletedAt }) sources).2.map
          DataSource.id = sources.map DataSource.id := by
      apply Store.map_updateFirst
      intro source
      rfl
    obtain ⟨source, stored, isLive⟩ := List.any_eq_true.mp live
    have same := of_decide_eq_true ((Bool.and_eq_true _ _).mp isLive).1
    exact ids ▸ same ▸ List.mem_map_of_mem stored
  · rw [updateFirst_isLive distinct live, DataSource.isLive_eq_false]
    intro source member same
    obtain ⟨earlier, -, rfl⟩ := List.mem_map.mp member
    by_cases own : earlier.id = id
    · rw [if_pos own]
      rfl
    · rw [if_neg own] at same
      exact absurd same own

/-- A new source takes no identifier that is stored, so that the deleted one stays the only one
with its identifier. -/
theorem Deleted.sourcesAfter {id : EntityId} {turn : Turn} {succeeded : Bool}
    (deleted : Deleted id sources)
    (distinct : ((turn.sourcesAfter succeeded sources).map DataSource.id).Nodup) :
    Deleted id (turn.sourcesAfter succeeded sources) := by
  have ids : (turn.sourcesAfter succeeded sources).map DataSource.id =
      sources.map DataSource.id ++ (turn.newSources succeeded).map DataSource.id := by
    unfold Turn.sourcesAfter
    rw [List.map_append, List.map_map]
    exact congrArg (· ++ _) (List.map_congr_left fun source _ => source.after_id)
  rw [ids] at distinct
  refine { stored := ?_, dead := DataSource.isLive_eq_false.mpr ?_ }
  · rw [ids]
    exact List.mem_append_left _ deleted.stored
  · intro source member same
    rcases List.mem_append.mp member with before | added
    · obtain ⟨earlier, present, rfl⟩ := List.mem_map.mp before
      rw [DataSource.after_id] at same
      exact DataSource.isDeleted_after
        (DataSource.isLive_eq_false.mp deleted.dead earlier present same)
    · have again : id ∈ (turn.newSources succeeded).map DataSource.id :=
        List.mem_map.mpr ⟨source, added, same⟩
      exact absurd again (List.disjoint_of_nodup_append distinct deleted.stored)

theorem run_deleted (laws : KeepsSources keeps opened) (kept : keeps s sources) {id : EntityId}
    (deleted : Deleted id sources) (turns : List Turn) :
    ∃ later, keeps (Turn.run turns s) later ∧ Deleted id later := by
  induction turns generalizing s sources with
  | nil => exact ⟨sources, kept, deleted⟩
  | cons turn rest ih =>
      have next := laws.next kept turn
      exact ih next (deleted.sourcesAfter (laws.distinct next))

end KeepsSources

end RolloutWatch

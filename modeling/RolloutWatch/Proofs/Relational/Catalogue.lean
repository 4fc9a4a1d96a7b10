import RolloutWatch.Proofs.Relational.Mirror
import RolloutWatch.Proofs.Relational.Tables
import RolloutWatch.Proofs.Service.Catalogue

/-!
The data sources that a database keeps. Each row is the row of a source, written as a whole when
the source is created, and only the columns of its health and of its deletion are written again.
-/

namespace RolloutWatch

theorem SourceRow.toSource_id {source read : DataSource}
    (parsed : (SourceRow.ofSource source).toSource = .ok read) : read.id = source.id := by
  unfold toSource at parsed
  obtain ⟨id, readId, rest⟩ := Parsed.bind_ok parsed
  obtain ⟨workspaceId, -, rest⟩ := Parsed.bind_ok rest
  obtain ⟨health, -, rest⟩ := Parsed.bind_ok rest
  obtain ⟨createdAt, -, rest⟩ := Parsed.bind_ok rest
  obtain ⟨deletedAt, -, rest⟩ := Parsed.bind_ok rest
  cases rest
  exact EntityId.text_injective (Column.id_text readId ⟨source.id, rfl⟩).symm

namespace RelationalStore

open Database

def IsOpen (s : RelationalStore) : Prop :=
  s.closed = false

instance (s : RelationalStore) : Decidable s.IsOpen :=
  inferInstanceAs (Decidable (_ = _))

structure Catalogued (s : RelationalStore) (sources : List DataSource) : Prop where
  stored : s.database.sources = sources.map .ofSource
  distinct : (sources.map DataSource.id).Nodup

theorem any_liveId (id : EntityId) (sources : List DataSource) :
    (sources.map SourceRow.ofSource).any (fun r => r.id = id.text && isLive r) =
      sources.any (DataSource.isLive id) := by
  rw [List.any_map, MemoryStore.liveId_ofSource]
  rfl

/-- A row is changed if its source is live, under the source's identifier. -/
theorem Catalogued.changeSource {s : RelationalStore} {sources : List DataSource}
    (kept : Catalogued s sources) (id : EntityId) {change : DataSource → DataSource}
    {rewrite : SourceRow → SourceRow}
    (same : rewrite ∘ SourceRow.ofSource = SourceRow.ofSource ∘ change)
    (keepsId : ∀ source, (change source).id = source.id) :
    (¬s.IsOpen ∧ ∃ fault, s.changeSource id rewrite = .error fault) ∨
      ∃ after, s.changeSource id rewrite = .ok (sources.any (DataSource.isLive id), after) ∧
        Catalogued after (Store.updateFirst (DataSource.isLive id) change sources).2 := by
  have updated := Store.updateFirst_map (MemoryStore.liveId_ofSource id) same sources
  rw [← kept.stored] at updated
  unfold RelationalStore.changeSource
  rw [updated]
  cases state : s.closed with
  | true =>
      refine .inl ⟨fun opened => Bool.false_ne_true (opened.symm.trans state), ?_⟩
      refine ⟨.persistence .closed, ?_⟩
      unfold writeWhere whenOpen
      rw [state]
      rfl
  | false =>
      let after := (Store.updateFirst (DataSource.isLive id) change sources).2
      refine .inr ⟨{ s with database := { s.database with sources := after.map .ofSource } },
        ?_, rfl, ?_⟩
      · rw [← Store.updateFirst_found _ change]
        exact whenOpen_of_open _ state
      · rw [Store.map_updateFirst _ _ _ keepsId]
        exact kept.distinct

theorem insertSource_ok {source : DataSource} {s after : RelationalStore}
    (written : insertDataSource source s = .ok after) :
    source.id.text ∉ s.database.sources.map SourceRow.id ∧
      after.database.sources = s.database.sources ++ [.ofSource source] := by
  obtain ⟨database, inserted, rfl⟩ := write_ok written
  unfold insertSource at inserted
  split at inserted
  · cases inserted
  · rename_i untaken
    cases inserted
    refine ⟨fun taken => ?_, rfl⟩
    obtain ⟨other, present, same⟩ := List.mem_map.mp taken
    exact untaken (List.any_eq_true.mpr ⟨other, present, decide_eq_true same⟩)

/-- Only the calls that are about sources write to their table. -/
theorem sources_change {s after : RelationalStore} {turn : Turn} (change : Change turn s after)
    (others : turn.call.writesSources = false) :
    after.database.sources = s.database.sources := by
  have tables := tablesChange change
  generalize after.database = database at tables ⊢
  cases tables with
  | sourcesWritten called sources =>
      rw [called] at others
      cases others
  | _ => rfl

theorem keepsSources : KeepsSources Catalogued IsOpen where
  distinct kept := kept.distinct
  inserted {s after sources source} kept written := by
    obtain ⟨fresh, rows⟩ := insertSource_ok written
    rw [kept.stored] at fresh rows
    refine { stored := ?_, distinct := ?_ }
    · rw [rows, List.map_append]
      rfl
    · refine Store.nodup_concat kept.distinct fun stored => fresh ?_
      obtain ⟨earlier, present, same⟩ := List.mem_map.mp stored
      rw [List.map_map, ← same]
      exact List.mem_map_of_mem (f := SourceRow.id ∘ SourceRow.ofSource) present
  health kept id health := kept.changeSource id rfl fun _ => rfl
  deletion kept id deletedAt := kept.changeSource id rfl fun _ => rfl
  others {s sources} kept turn others :=
    { stored := (sources_change (turn.change s) others).trans kept.stored
      distinct := kept.distinct }
  absent {s sources} kept isOpen id dead := by
    refine (whenOpen_of_open _ isOpen).trans ?_
    have none : s.database.sources.find? (fun r => r.id = id.text && isLive r) = none := by
      rw [kept.stored]
      apply List.find?_eq_none.mpr
      rw [← List.any_eq_false, any_liveId]
      exact dead
    rw [none]
  listed {s sources} kept workspaceId health listed answered source member := by
    obtain ⟨-, result⟩ := whenOpen_ok answered
    cases read : ((s.database.sources.filter (isListed workspaceId health)).mergeSort
        listedBefore).mapM SourceRow.toSource with
    | error fault =>
        rw [read] at result
        cases result
    | ok found =>
        rw [read] at result
        cases result
        obtain ⟨r, present, parsed⟩ :=
          Parsed.exists_source (Parsed.mapM_ok_iff.mp read) member
        have chosen := List.mem_filter.mp ((List.mergeSort_perm _ _).subset present)
        rw [kept.stored] at chosen
        obtain ⟨row, isListed⟩ := chosen
        obtain ⟨stored, known, rfl⟩ := List.mem_map.mp row
        unfold RelationalStore.isListed at isListed
        simp only [Bool.and_eq_true] at isListed
        refine List.any_eq_true.mpr ⟨stored, known, ?_⟩
        unfold DataSource.isLive
        rw [SourceRow.toSource_id parsed, decide_eq_true rfl, ← MemoryStore.live_ofSource,
          isListed.1.2]
        rfl

theorem created_catalogued : Catalogued (onDatabase .empty) [] :=
  { stored := rfl, distinct := List.nodup_nil }

theorem Reachable.catalogued {s : RelationalStore} (reachable : Reachable s) :
    ∃ sources, Catalogued s sources := by
  induction reachable with
  | created => exact ⟨[], created_catalogued⟩
  | next turn reachable ih =>
      obtain ⟨sources, kept⟩ := ih
      exact ⟨_, keepsSources.next kept turn⟩
  | reopened reachable ih =>
      obtain ⟨sources, kept⟩ := ih
      exact ⟨sources, { stored := kept.stored, distinct := kept.distinct }⟩

end RelationalStore

end RolloutWatch

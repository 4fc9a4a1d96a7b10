import RolloutWatch.Proofs.Memory.Sources
import RolloutWatch.Proofs.Service.Catalogue

/-!
The data sources that the store in memory keeps. They are a table of their own, which is written
by the calls that are about sources and by no others, and every read passes over deleted ones.
-/

namespace RolloutWatch.MemoryStore

def IsOpen (s : MemoryStore) : Prop :=
  s.closed = false

instance (s : MemoryStore) : Decidable s.IsOpen :=
  inferInstanceAs (Decidable (_ = _))

structure Catalogued (s : MemoryStore) (sources : List DataSource) : Prop where
  stored : s.sources = sources
  distinct : (sources.map DataSource.id).Nodup

theorem changeSource_closed {s : MemoryStore} (closed : s.closed = true) (id : EntityId)
    (change : DataSource → DataSource) :
    ∃ fault, s.changeSource id change = .error fault := by
  refine ⟨.persistence .closed, ?_⟩
  unfold changeSource whenOpen
  rw [closed]
  rfl

theorem Catalogued.changeSource {s : MemoryStore} {sources : List DataSource}
    (kept : Catalogued s sources) (id : EntityId) {change : DataSource → DataSource}
    (keepsId : ∀ source, (change source).id = source.id) :
    (¬s.IsOpen ∧ ∃ fault, s.changeSource id change = .error fault) ∨
      ∃ after, s.changeSource id change = .ok (sources.any (DataSource.isLive id), after) ∧
        Catalogued after (Store.updateFirst (DataSource.isLive id) change sources).2 := by
  cases state : s.closed with
  | true =>
      refine .inl ⟨fun opened => ?_, changeSource_closed state id change⟩
      exact Bool.false_ne_true (opened.symm.trans state)
  | false =>
      refine .inr ⟨{ s with
        sources := (Store.updateFirst (DataSource.isLive id) change sources).2 }, ?_, rfl, ?_⟩
      · rw [← Store.updateFirst_found _ change, ← kept.stored]
        exact whenOpen_of_open _ state
      · rw [Store.map_updateFirst _ _ _ keepsId]
        exact kept.distinct

theorem Catalogued.next {s : MemoryStore} {sources : List DataSource}
    (kept : Catalogued s sources) {turn : Turn} (others : turn.call.writesSources = false) :
    Catalogued (turn.next s) sources := by
  cases sourcesChange (turn.change s) with
  | kept same => exact { stored := same.trans kept.stored, distinct := kept.distinct }
  | created input written called =>
      rw [called] at others
      cases others
  | deleted id deletedAt written called =>
      rw [called] at others
      cases others
  | healthSet id health written called =>
      rw [called] at others
      cases others

theorem keepsSources : KeepsSources Catalogued IsOpen where
  distinct kept := kept.distinct
  inserted kept written := by
    obtain ⟨fresh, sources⟩ := insertDataSource_new written
    rw [kept.stored] at fresh sources
    exact { stored := sources, distinct := Store.nodup_concat kept.distinct fresh }
  health kept id health := kept.changeSource id fun _ => rfl
  deletion kept id deletedAt := kept.changeSource id fun _ => rfl
  others kept _ others := kept.next others
  absent {s sources} kept isOpen id dead := by
    refine (whenOpen_of_open _ isOpen).trans (congrArg Except.ok ?_)
    rw [← Store.find_and_of_nodup DataSource.id id _ _ (kept.stored ▸ kept.distinct),
      kept.stored]
    exact List.find?_eq_none.mpr fun source member =>
      List.any_eq_false.mp dead source member
  listed {s sources} kept workspaceId health listed answered source member := by
    obtain ⟨-, result⟩ := whenOpen_ok answered
    rw [← Except.ok.inj result] at member
    have chosen := List.mem_filter.mp ((List.mergeSort_perm _ _).subset member)
    unfold isListed at chosen
    simp only [Bool.and_eq_true] at chosen
    rw [← kept.stored]
    refine List.any_eq_true.mpr ⟨source, chosen.1, ?_⟩
    unfold DataSource.isLive
    rw [decide_eq_true rfl, chosen.2.1.1]
    rfl

theorem empty_catalogued : Catalogued empty [] :=
  { stored := rfl, distinct := List.nodup_nil }

/-- Whatever the services have done before, the stored sources have identifiers of their own. -/
theorem catalogued_run (turns : List Turn) :
    Catalogued (Turn.run turns empty) (Turn.run turns empty).sources := by
  obtain ⟨sources, kept⟩ := @Turn.invariant_run MemoryStore _
    (fun s => ∃ sources, Catalogued s sources)
    (fun turn s => fun ⟨_, kept⟩ => ⟨_, keepsSources.next kept turn⟩) turns empty
    ⟨[], empty_catalogued⟩
  exact kept.stored ▸ kept

end RolloutWatch.MemoryStore

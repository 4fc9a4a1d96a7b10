import RolloutWatch.Proofs.Memory.Catalogue
import RolloutWatch.Proofs.Store.Operation
import RolloutWatch.Proofs.Time.Order
import Mathlib.Data.Prod.Lex
import Mathlib.Data.String.Basic

/-!
The store in memory after any operations. Its data sources are those of the ledger, and whatever
comes to be stored has an identifier that nothing of its kind has yet.
-/

namespace RolloutWatch.MemoryStore

/-- What operations on a new store lead to. A store in memory is not opened again. -/
def Operated (allowed : StoreOperation → Prop) : MemoryStore → Contents → Prop :=
  Store.Operated empty (fun _ _ => False) allowed

/-- The store keeps the sources of the ledger, and its tables have keys. -/
structure Keeps (s : MemoryStore) (c : Contents) : Prop where
  sources : s.sources = c.sources
  sourceIds : (s.sources.map DataSource.id).Nodup
  groupIds : (s.groups.map MetricsGroup.id).Nodup
  metricIds : (s.metrics.map Metric.id).Nodup

theorem empty_keeps : Keeps empty .empty :=
  { sources := rfl
    sourceIds := List.nodup_nil
    groupIds := List.nodup_nil
    metricIds := List.nodup_nil }

variable {s after : MemoryStore} {c : Contents}

theorem Keeps.changeSource (keeps : Keeps s c) {id : EntityId} {change : DataSource → DataSource}
    (keepsId : ∀ source, (change source).id = source.id) {found : Bool}
    (written : s.changeSource id change = .ok (found, after)) :
    Keeps after
      { c with sources := Contents.changeWhere (DataSource.isLive id) change c.sources } := by
  obtain ⟨-, result⟩ := whenOpen_ok written
  cases result
  have meant : ∀ source, DataSource.isLive id source = true → source.id = id :=
    fun source live => of_decide_eq_true ((Bool.and_eq_true _ _).mp live).1
  have rows := Store.updateFirst_eq_map DataSource.id id meant change keeps.sourceIds
  refine
    { keeps with
      sources := ?_
      sourceIds := Store.nodup_updateFirst keepsId keeps.sourceIds }
  change (Store.updateFirst (DataSource.isLive id) change s.sources).2 = _
  rw [rows, keeps.sources]
  rfl

theorem Keeps.removeMetrics (keeps : Keeps s c) (gone : Metric → Bool) (groups : List MetricsGroup)
    (fewer : groups.Sublist s.groups) (later : Contents) (same : later.sources = c.sources) :
    Keeps (MemoryStore.removeMetrics { s with groups } gone) later :=
  { sources := keeps.sources.trans same.symm
    sourceIds := keeps.sourceIds
    groupIds := keeps.groupIds.sublist (fewer.map _)
    metricIds := keeps.metricIds.sublist (List.filter_sublist.map _) }

/-- Every operation that succeeds changes store and ledger alike. -/
theorem Keeps.perform (keeps : Keeps s c) {operation : StoreOperation}
    (done : operation.perform s = .ok after) : Keeps after (c.after operation) := by
  cases operation with
  | insertDataSource source =>
      obtain ⟨sources, rfl⟩ := insertDataSource_tables done
      obtain ⟨fresh, added⟩ := insertDataSource_new done
      simp only at added
      subst added
      exact
        { keeps with
          sources := congrArg (· ++ [source]) keeps.sources
          sourceIds := Store.nodup_concat keeps.sourceIds fresh }
  | setDataSourceHealth id health =>
      obtain ⟨found, written⟩ := Store.map_snd_ok.mp done
      exact keeps.changeSource (fun _ => rfl) written
  | softDeleteDataSource id deletedAt =>
      obtain ⟨found, written⟩ := Store.map_snd_ok.mp done
      exact keeps.changeSource (fun _ => rfl) written
  | insertMetricsGroup g =>
      obtain ⟨newGroup, distinct, newMetrics, rfl⟩ := insertMetricsGroup_tables done
      exact
        { sources := keeps.sources
          sourceIds := keeps.sourceIds
          groupIds := Store.nodup_concat keeps.groupIds newGroup
          metricIds := Store.nodup_append keeps.metricIds distinct newMetrics }
  | updateMetricsGroup id update =>
      obtain ⟨found, written⟩ := Store.map_snd_ok.mp done
      obtain ⟨-, result⟩ := whenOpen_ok written
      cases result
      refine { keeps with groupIds := Store.nodup_updateFirst ?_ keeps.groupIds }
      intro row
      rfl
  | deleteMetricsGroup id =>
      obtain ⟨found, written⟩ := Store.map_snd_ok.mp done
      rcases deleteMetricsGroup_tables written with rfl | rfl
      · exact { keeps with sources := keeps.sources }
      · exact keeps.removeMetrics _ _ List.filter_sublist _ rfl
  | insertMetric m =>
      obtain ⟨-, newMetric, rfl⟩ := insertMetric_tables done
      exact
        { keeps with
          sources := keeps.sources
          metricIds := Store.nodup_concat keeps.metricIds newMetric }
  | updateMetric m =>
      obtain ⟨found, written⟩ := Store.map_snd_ok.mp done
      obtain ⟨-, result⟩ := whenOpen_ok written
      cases result
      refine { keeps with metricIds := Store.nodup_updateFirst ?_ keeps.metricIds }
      intro row
      rfl
  | deleteMetric id =>
      obtain ⟨found, written⟩ := Store.map_snd_ok.mp done
      rw [deleteMetric_tables written]
      exact keeps.removeMetrics _ s.groups (List.Sublist.refl _) _ rfl
  | updateMetricExecution e =>
      obtain ⟨found, written⟩ := Store.map_snd_ok.mp done
      obtain ⟨-, result⟩ := whenOpen_ok written
      cases result
      exact { keeps with sources := keeps.sources }
  | close =>
      cases done
      exact { keeps with sources := keeps.sources }

theorem Operated.keeps {allowed : StoreOperation → Prop} (operated : Operated allowed s c) :
    Keeps s c :=
  Store.Operated.invariant empty_keeps (fun _ keeps _ done => keeps.perform done)
    (fun _ opened => opened.elim) operated

/-! ### Listings of sources -/

/-- Sources are listed by their times of creation, then by their names. -/
theorem listedBefore_comparesBy :
    ComparesBy listedBefore fun source => toLex (source.createdAt.civil.key, source.name) := by
  intro a b
  rw [Prod.Lex.le_iff]
  unfold listedBefore
  simp only [Bool.or_eq_true, Bool.and_eq_true, Bool.not_eq_true', Instant.before_eq_false,
    decide_eq_true_eq, ofLex_toLex]
  have earlier : a.createdAt.before b.createdAt = true ↔
      a.createdAt.civil.key < b.createdAt.civil.key := by
    unfold Instant.before
    exact decide_eq_true_iff
  rw [earlier]
  constructor
  · rintro (less | ⟨notAfter, named⟩)
    · exact .inl less
    · rcases lt_or_eq_of_le notAfter with less | same
      · exact .inl less
      · exact .inr ⟨same, named⟩
  · rintro (less | ⟨same, named⟩)
    · exact .inl less
    · exact .inr ⟨le_of_eq same, named⟩

end RolloutWatch.MemoryStore

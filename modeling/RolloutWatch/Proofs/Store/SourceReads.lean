import RolloutWatch.Proofs.Memory.Contents
import RolloutWatch.Proofs.Relational.Rows
import RolloutWatch.Proofs.Store.Frame

/-!
How sources are read, whatever rows a store keeps them in. A store searches its sources and sorts
the listed ones by a key, and then reads one source after the other. From this it follows what a
change of one live source does to the reads.
-/

namespace RolloutWatch

namespace Store

variable {σ : Type} [Store σ]

structure ServesSources (read : DataSource → Parsed DataSource)
    (le : DataSource → DataSource → Bool) (s : σ) (sources : List DataSource) : Prop where
  find : ∀ id, Store.findDataSource id s =
    Database.readFound read (sources.find? (DataSource.isLive id))
  list : ∀ workspaceId health, Store.listDataSources workspaceId health s =
    Database.parsed (((sources.filter (MemoryStore.isListed workspaceId health)).mergeSort
      le).mapM read)

/-- One live source has been changed, in a store that is said to hold its sources. -/
structure ChangesSource (read : DataSource → Parsed DataSource)
    (le : DataSource → DataSource → Bool) (holds : σ → List DataSource → Prop) (id : EntityId)
    (change : DataSource → DataSource) (before after : σ) (sources : List DataSource) : Prop where
  serves : ServesSources read le before sources
  servesLater : ServesSources read le after
    (Contents.changeWhere (DataSource.isLive id) change sources)
  held : holds before sources
  heldLater : holds after (Contents.changeWhere (DataSource.isLive id) change sources)
  found : sources.any (DataSource.isLive id) = true
  tracked : TrackedKept before after

structure ReadsSources (read : DataSource → Parsed DataSource) : Prop where
  identified : ∀ source found, read source = .ok found →
    found.id = source.id ∧ found.health = source.health
  withHealth : ∀ source health, read { source with health } =
    (read source).map fun found => { found with health }

end Store

/-! ### Changes of one live source -/

namespace DataSource

theorem id_of_isLive {id : EntityId} {source : DataSource} (live : isLive id source = true) :
    source.id = id :=
  of_decide_eq_true ((Bool.and_eq_true _ _).mp live).1

/-- A source that some search finds is the live one with an identifier if it has the identifier. -/
theorem isLive_of_live {id : EntityId} {source : DataSource} (live : source.isDeleted = false) :
    isLive id source = decide (source.id = id) := by
  unfold isLive
  rw [live, Bool.not_false, Bool.and_true]

theorem live_of_isLive {id : EntityId} {source : DataSource} (live : isLive id source = true) :
    source.isDeleted = false :=
  (Bool.not_eq_true' _).mp ((Bool.and_eq_true _ _).mp live).2

theorem live_of_isListed {workspaceId : EntityId} {health : Option Health} {source : DataSource}
    (listed : MemoryStore.isListed workspaceId health source = true) :
    source.isDeleted = false := by
  unfold MemoryStore.isListed at listed
  simp only [Bool.and_eq_true] at listed
  exact (Bool.not_eq_true' _).mp listed.1.1

theorem isListed_by (workspaceId : EntityId) (wanted : Health) (source : DataSource) :
    MemoryStore.isListed workspaceId (some wanted) source =
      (MemoryStore.isListed workspaceId none source && decide (source.health = wanted)) := by
  unfold MemoryStore.isListed
  rw [Bool.and_true]

end DataSource

namespace Contents

variable {α : Type} {p q : α → Bool} {change : α → α}

theorem filter_changeWhere (unwanted : ∀ a, p a = true → q a = false ∧ q (change a) = false)
    (items : List α) : (changeWhere p change items).filter q = items.filter q := by
  induction items with
  | nil => rfl
  | cons a rest ih =>
      unfold changeWhere at ih ⊢
      rw [List.map_cons, List.filter_cons, List.filter_cons, ih]
      cases holds : p a with
      | true =>
          obtain ⟨before, after⟩ := unwanted a holds
          simp only [if_true, before, after, Bool.false_eq_true, if_false]
      | false => simp only [Bool.false_eq_true, if_false]

theorem filter_changeWhere_gone (gone : ∀ a, p a = true → q (change a) = false)
    (items : List α) :
    (changeWhere p change items).filter q = (items.filter q).filter fun a => !p a := by
  induction items with
  | nil => rfl
  | cons a rest ih =>
      unfold changeWhere at ih ⊢
      rw [List.map_cons, List.filter_cons, List.filter_cons, ih]
      cases holds : p a with
      | true =>
          simp only [if_true, gone a holds, Bool.false_eq_true, if_false]
          cases q a with
          | true => simp only [if_true, List.filter_cons, holds, Bool.not_true,
              Bool.false_eq_true, if_false]
          | false => simp only [Bool.false_eq_true, if_false]
      | false =>
          simp only [Bool.false_eq_true, if_false]
          cases q a with
          | true => simp only [if_true, List.filter_cons, holds, Bool.not_false, if_true]
          | false => simp only [Bool.false_eq_true, if_false]

theorem filter_changeWhere_kept (change : α → α) (kept : ∀ a, q (change a) = q a)
    (items : List α) :
    (changeWhere p change items).filter q = changeWhere p change (items.filter q) := by
  have same : (q ∘ fun a => if p a = true then change a else a) = q := by
    funext a
    rw [Function.comp_apply]
    split
    · exact kept a
    · rfl
  unfold changeWhere
  rw [List.filter_map, same]

theorem find_changeWhere_kept (change : α → α) (kept : ∀ a, q (change a) = q a)
    (items : List α) :
    (changeWhere p change items).find? q =
      (items.find? q).map fun a => if p a = true then change a else a := by
  have same : (q ∘ fun a => if p a = true then change a else a) = q := by
    funext a
    rw [Function.comp_apply]
    split
    · exact kept a
    · rfl
  unfold changeWhere
  rw [List.find?_map, same]

end Contents

namespace Store

variable {σ : Type} [Store σ] {read : DataSource → Parsed DataSource}
  {le : DataSource → DataSource → Bool} {κ : Type} [LinearOrder κ] {key : DataSource → κ}
  {before after : σ} {sources later : List DataSource} {id : EntityId} {health : Health}
  {deletedAt : Instant} {holds : σ → List DataSource → Prop}

theorem ReadsSources.changed (reads : ReadsSources read) {source : DataSource}
    (live : source.isDeleted = false) :
    read (if DataSource.isLive id source = true then { source with health } else source) =
      (read source).map (DataSource.withHealth id health) := by
  rw [DataSource.isLive_of_live live]
  simp only [decide_eq_true_eq]
  exact Parsed.read_ite (reads.withHealth source health) fun found readSource => by
    rw [(reads.identified source found readSource).1]

/-- Sources with other identifiers that are listed stay the same, if no other ones change. -/
theorem ServesSources.others (serves : ServesSources read le before sources)
    (servesLater : ServesSources read le after later) (reads : ReadsSources read)
    (compares : ComparesBy le key)
    (same : (later.filter fun source => source.id ≠ id) =
      sources.filter fun source => source.id ≠ id)
    {workspaceId : EntityId} {wanted : Option Health} {listed listedLater : List DataSource}
    (answered : Store.listDataSources workspaceId wanted before = .ok listed)
    (answeredLater : Store.listDataSources workspaceId wanted after = .ok listedLater) :
    (listedLater.filter fun source => source.id ≠ id) =
      listed.filter fun source => source.id ≠ id := by
  have named : ∀ source found, read source = .ok found →
      decide (found.id ≠ id) = decide (source.id ≠ id) := fun source found readSource => by
    rw [(reads.identified source found readSource).1]
  rw [serves.list, Database.parsed_ok] at answered
  rw [servesLater.list, Database.parsed_ok] at answeredLater
  have rest := Parsed.mapM_filter answered named
  have restLater := Parsed.mapM_filter answeredLater named
  rw [compares.filter_mergeSort, List.filter_comm] at rest restLater
  rw [same, rest] at restLater
  exact (Except.ok.inj restLater).symm

/-- A listing shows the sources in their order after the health of a live one has been written. -/
theorem ServesSources.listed_healthSet (serves : ServesSources read le before sources)
    (servesLater : ServesSources read le after
      (Contents.changeWhere (DataSource.isLive id) (fun source => { source with health }) sources))
    (reads : ReadsSources read) (compares : ComparesBy le key)
    (sameKey : ∀ source health, key { source with health } = key source)
    (workspaceId : EntityId) :
    Store.listDataSources workspaceId none after =
      (Store.listDataSources workspaceId none before).map
        (List.map (DataSource.withHealth id health)) := by
  let changed : DataSource → DataSource := fun source =>
    if DataSource.isLive id source = true then { source with health } else source
  have keys (source : DataSource) : key (changed source) = key source := by
    change key (if _ then _ else _) = _
    split
    · exact sameKey source health
    · rfl
  have sorted : ((sources.filter (MemoryStore.isListed workspaceId none)).mergeSort le).map
      changed =
        ((sources.filter (MemoryStore.isListed workspaceId none)).map changed).mergeSort le := by
    apply List.map_mergeSort
    intro a _ b _
    rw [Bool.eq_iff_iff, compares a b, compares (changed a) (changed b), keys, keys]
  have part : (Contents.changeWhere (DataSource.isLive id)
      (fun source => { source with health }) sources).filter
        (MemoryStore.isListed workspaceId none) =
          (sources.filter (MemoryStore.isListed workspaceId none)).map changed :=
    Contents.filter_changeWhere_kept (fun source => { source with health }) (fun _ => rfl) sources
  rw [servesLater.list, serves.list, part, ← sorted, List.mapM_map, ← Database.parsed_map]
  refine congrArg Database.parsed (Parsed.mapM_through fun source member => ?_)
  have chosen := (List.mem_filter.mp ((List.mergeSort_perm _ _).subset member)).2
  exact reads.changed (DataSource.live_of_isListed chosen)

/-- A listing by health shows what has the health among all. -/
theorem ServesSources.listed_by (serves : ServesSources read le before sources)
    (reads : ReadsSources read) (compares : ComparesBy le key) {workspaceId : EntityId}
    {wanted : Health} {listed : List DataSource}
    (answered : Store.listDataSources workspaceId none before = .ok listed) :
    Store.listDataSources workspaceId (some wanted) before =
      .ok (listed.filter fun source => source.health = wanted) := by
  rw [serves.list, Database.parsed_ok] at answered
  have rest := Parsed.mapM_filter answered (p := fun source => decide (source.health = wanted))
    (q := fun source => decide (source.health = wanted)) fun source found readSource => by
      rw [(reads.identified source found readSource).2]
  rw [compares.filter_mergeSort, List.filter_filter] at rest
  rw [serves.list, Database.parsed_ok, ← rest]
  refine congrArg (fun part => (List.mergeSort part le).mapM read)
    (List.filter_congr fun source _ => ?_)
  rw [DataSource.isListed_by, Bool.and_comm]

theorem ChangesSource.healthSet
    (written : ChangesSource read le holds id (fun source => { source with health }) before after
      sources)
    (reads : ReadsSources read) (compares : ComparesBy le key)
    (sameKey : ∀ source health, key { source with health } = key source) :
    HealthSet holds id health before after := by
  obtain ⟨serves, servesLater, held, heldLater, found, tracked⟩ := written
  have listed := serves.listed_healthSet servesLater reads compares sameKey
  refine
    { stored := ⟨sources, held, found, heldLater⟩
      tracked
      source := fun other => ?_
      listed
      listedBy := fun workspaceId wanted shown answered => ?_
      others := fun workspaceId wanted shown shownLater answered answeredLater => ?_ }
  · have search := Contents.find_changeWhere_kept (fun source => { source with health })
      (p := DataSource.isLive id) (q := DataSource.isLive other) (fun _ => rfl) sources
    rw [servesLater.find, serves.find, search, Database.readFound_map]
    apply Database.readFound_through
    intro source first
    exact reads.changed (DataSource.live_of_isLive (List.find?_some first))
  · apply servesLater.listed_by reads compares
    rw [listed, answered]
    rfl
  · refine serves.others servesLater reads compares ?_ answered answeredLater
    apply Contents.filter_changeWhere
    intro source live
    have named := DataSource.id_of_isLive live
    exact ⟨decide_eq_false fun apart => apart named, decide_eq_false fun apart => apart named⟩

theorem ChangesSource.sourceDeleted
    (written : ChangesSource read le holds id
      (fun source => { source with deletedAt := some deletedAt }) before after sources)
    (reads : ReadsSources read) (compares : ComparesBy le key) :
    SourceDeleted holds id deletedAt before after := by
  obtain ⟨serves, servesLater, held, heldLater, found, tracked⟩ := written
  have dead (other : EntityId) (source : DataSource) :
      DataSource.isLive other { source with deletedAt := some deletedAt } = false :=
    Bool.and_false _
  refine
    { stored := ⟨sources, held, found, heldLater⟩
      tracked
      gone := ?_
      source := fun other apart => ?_
      listed := fun workspaceId wanted listed answered => ?_ }
  · have missing : (Contents.changeWhere (DataSource.isLive id)
        (fun source => { source with deletedAt := some deletedAt }) sources).find?
          (DataSource.isLive id) = none := by
      rw [List.find?_eq_none]
      intro source member live
      obtain ⟨earlier, -, rfl⟩ := List.mem_map.mp member
      split at live
      · rw [dead] at live
        cases live
      · rename_i notLive
        exact notLive live
    rw [servesLater.find, missing]
    rfl
  · have search : (Contents.changeWhere (DataSource.isLive id)
        (fun source => { source with deletedAt := some deletedAt }) sources).find?
          (DataSource.isLive other) = sources.find? (DataSource.isLive other) := by
      rw [← List.head?_filter, ← List.head?_filter]
      refine congrArg List.head? (Contents.filter_changeWhere (fun source live => ?_) sources)
      refine ⟨?_, dead other source⟩
      unfold DataSource.isLive
      rw [DataSource.id_of_isLive live, decide_eq_false apart.symm, Bool.false_and]
    rw [servesLater.find, serves.find, search]
  · rw [serves.list, Database.parsed_ok] at answered
    have rest := Parsed.mapM_filter answered (p := fun source => decide (source.id ≠ id))
      (q := fun source => decide (source.id ≠ id)) fun source found readSource => by
        rw [(reads.identified source found readSource).1]
    have part : (Contents.changeWhere (DataSource.isLive id)
        (fun source => { source with deletedAt := some deletedAt }) sources).filter
          (MemoryStore.isListed workspaceId wanted) =
            (sources.filter (MemoryStore.isListed workspaceId wanted)).filter
              fun source => source.id ≠ id := by
      rw [Contents.filter_changeWhere_gone fun _ _ => rfl]
      apply List.filter_congr
      intro source member
      have live := DataSource.live_of_isListed (List.mem_filter.mp member).2
      rw [DataSource.isLive_of_live live, ← decide_not]
    rw [servesLater.list, Database.parsed_ok, part, ← compares.filter_mergeSort]
    exact rest

end Store

end RolloutWatch

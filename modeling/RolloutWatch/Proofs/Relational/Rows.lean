import RolloutWatch.Proofs.Text.Identifier
import RolloutWatch.Store.Relational
import Mathlib.Data.List.Perm.Basic

/-!
What is known of rows that have been read. A reader that succeeds has read every column, and
identifiers read from the text of an identifier are that identifier.
-/

namespace RolloutWatch

namespace Parsed

variable {α β : Type}

theorem bind_ok {first : Parsed α} {next : α → Parsed β} {b : β}
    (read : (first >>= next) = .ok b) : ∃ a, first = .ok a ∧ next a = .ok b := by
  cases first with
  | error fault => cases read
  | ok a => exact ⟨a, rfl, read⟩

theorem map_bind {γ : Type} (view : β → γ) (first : Parsed α) (next : α → Parsed β) :
    (first >>= next).map view = first >>= fun a => (next a).map view := by
  cases first <;> rfl

theorem bind_map {γ : Type} (view : α → β) (first : Parsed α) (next : β → Parsed γ) :
    first.map view >>= next = first >>= fun a => next (view a) := by
  cases first <;> rfl

theorem mapM_ok {f : α → Parsed β} {items : List α} {values : List β}
    (read : items.mapM f = .ok values) :
    List.Forall₂ (fun item value => f item = .ok value) items values := by
  induction items generalizing values with
  | nil =>
      cases read
      exact .nil
  | cons item rest ih =>
      rw [List.mapM_cons] at read
      obtain ⟨value, first, others⟩ := bind_ok read
      obtain ⟨later, readLater, final⟩ := bind_ok others
      cases final
      exact .cons first (ih readLater)

theorem mapM_ok_iff {f : α → Parsed β} {items : List α} {values : List β} :
    items.mapM f = .ok values ↔
      List.Forall₂ (fun item value => f item = .ok value) items values := by
  refine ⟨mapM_ok, fun pairs => ?_⟩
  induction pairs with
  | nil => rfl
  | cons first rest ih =>
      rw [List.mapM_cons, first, ih]
      rfl

theorem mapM_map {γ : Type} {row : α → β} {read : β → Parsed γ} {view : α → γ}
    {items : List α} (each : ∀ a ∈ items, read (row a) = .ok (view a)) :
    (items.map row).mapM read = .ok (items.map view) := by
  rw [mapM_ok_iff, List.forall₂_map_left_iff, List.forall₂_map_right_iff]
  exact List.forall₂_same.mpr each

theorem mapM_each {read : α → Parsed β} {view : α → β} {items : List α}
    (each : ∀ a ∈ items, read a = .ok (view a)) : items.mapM read = .ok (items.map view) := by
  have all : (items.map id).mapM read = .ok (items.map view) := mapM_map each
  rwa [List.map_id] at all

/-- What each item is read as through a view, the items are read as together. -/
theorem mapM_through {γ : Type} {read : α → Parsed β} {readAs : α → Parsed γ} {view : β → γ}
    {items : List α} (each : ∀ a ∈ items, readAs a = (read a).map view) :
    items.mapM readAs = (items.mapM read).map (List.map view) := by
  induction items with
  | nil => rfl
  | cons a rest ih =>
      obtain ⟨here, later⟩ := List.forall_mem_cons.mp each
      rw [List.mapM_cons, List.mapM_cons, here, ih later, bind_map, map_bind]
      congr 1
      funext b
      rw [bind_map, map_bind]
      rfl

theorem mapM_exists {f : α → Parsed β} {items : List α}
    (each : ∀ item ∈ items, ∃ value, f item = .ok value) : ∃ values, items.mapM f = .ok values := by
  induction items with
  | nil => exact ⟨[], rfl⟩
  | cons item rest ih =>
      obtain ⟨value, first⟩ := each item List.mem_cons_self
      obtain ⟨values, others⟩ := ih fun other member => each other (List.mem_cons_of_mem _ member)
      exact ⟨value :: values,
        mapM_ok_iff.mpr (.cons first (mapM_ok_iff.mp others))⟩

theorem mapM_perm {f : α → Parsed β} {items others : List α} {values : List β}
    (perm : others.Perm items) (read : items.mapM f = .ok values) :
    ∃ reordered, others.mapM f = .ok reordered ∧ reordered.Perm values := by
  obtain ⟨reordered, pairs, same⟩ := List.perm_comp_forall₂ perm (mapM_ok read)
  exact ⟨reordered, mapM_ok_iff.mpr pairs, same⟩

theorem map_congr {first : Parsed α} {view other : α → β}
    (same : ∀ a, first = .ok a → view a = other a) : first.map view = first.map other := by
  cases first with
  | error fault => rfl
  | ok a => exact congrArg Except.ok (same a rfl)

theorem map_eq_self {first : Parsed α} {view : α → α} (same : ∀ a, first = .ok a → view a = a) :
    first.map view = first := by
  cases first with
  | error fault => rfl
  | ok a => exact congrArg Except.ok (same a rfl)

/-- What is written under a condition, which shows in what is read, is read under it. -/
theorem read_ite {read : α → Parsed β} {a written : α} {view : β → β} {wanted : Prop}
    {shown : β → Prop} [Decidable wanted] [DecidablePred shown]
    (changed : read written = (read a).map view)
    (same : ∀ b, read a = .ok b → (shown b ↔ wanted)) :
    read (if wanted then written else a) =
      (read a).map fun b => if shown b then view b else b := by
  by_cases holds : wanted
  · rw [if_pos holds, changed]
    exact map_congr fun b found => (if_pos ((same b found).mpr holds)).symm
  · rw [if_neg holds]
    exact (map_eq_self fun b found => if_neg fun again => holds ((same b found).mp again)).symm

/-- What has been read of the rows with a property is read of these rows alone. -/
theorem mapM_filter {read : α → Parsed β} {p : α → Bool} {q : β → Bool} {items : List α}
    {values : List β} (readAll : items.mapM read = .ok values)
    (same : ∀ a b, read a = .ok b → q b = p a) :
    (items.filter p).mapM read = .ok (values.filter q) := by
  have pairs := mapM_ok readAll
  rw [mapM_ok_iff]
  clear readAll
  induction pairs with
  | nil => exact .nil
  | cons first rest ih =>
      have judged := same _ _ first
      rw [List.filter_cons, List.filter_cons, judged]
      split
      · exact .cons first ih
      · exact ih

theorem mapM_view {γ : Type} {read : α → Parsed β} {view : β → γ} {key : α → γ} {items : List α}
    {values : List β} (readAll : items.mapM read = .ok values)
    (same : ∀ a b, read a = .ok b → view b = key a) : values.map view = items.map key := by
  have pairs := mapM_ok readAll
  clear readAll
  induction pairs with
  | nil => rfl
  | cons first rest ih => rw [List.map_cons, List.map_cons, same _ _ first, ih]

theorem exists_source {related : α → β → Prop} {items : List α} {values : List β}
    (pairs : List.Forall₂ related items values) {value : β} (member : value ∈ values) :
    ∃ item ∈ items, related item value := by
  induction pairs with
  | nil => cases member
  | cons first rest ih =>
      rcases List.mem_cons.mp member with rfl | later
      · exact ⟨_, List.mem_cons_self, first⟩
      · obtain ⟨item, present, source⟩ := ih later
        exact ⟨item, List.mem_cons_of_mem _ present, source⟩

end Parsed

theorem Column.id_text {name text : String} {id : EntityId} (read : Column.id name text = .ok id)
    (written : ∃ source : EntityId, text = source.text) : text = id.text := by
  obtain ⟨source, rfl⟩ := written
  unfold Column.id at read
  rw [EntityId.ofString_text] at read
  cases read
  rfl

theorem ExecutionRow.toExecution_id {r : ExecutionRow} {e : MetricExecution}
    (read : r.toExecution = .ok e) : Column.id "id" r.id = .ok e.id := by
  unfold toExecution at read
  obtain ⟨id, readId, rest⟩ := Parsed.bind_ok read
  obtain ⟨metricId, -, rest⟩ := Parsed.bind_ok rest
  obtain ⟨lastValue, -, rest⟩ := Parsed.bind_ok rest
  obtain ⟨status, -, rest⟩ := Parsed.bind_ok rest
  obtain ⟨createdAt, -, rest⟩ := Parsed.bind_ok rest
  cases rest
  exact readId

theorem MetricRow.toMetric_through {r : MetricRow} {e other : ExecutionRow}
    {change : MetricExecution → MetricExecution}
    (read : ExecutionRow.toExecution { other with metricId := r.id } =
      (ExecutionRow.toExecution { e with metricId := r.id }).map change) :
    r.toMetric other =
      (r.toMetric e).map fun m => { m with execution := change m.execution } := by
  unfold toMetric
  rw [read]
  simp only [Parsed.map_bind, Parsed.bind_map]
  rfl

theorem MetricRow.toMetric_id {r : MetricRow} {e : ExecutionRow} {m : Metric}
    (read : r.toMetric e = .ok m) :
    Column.id "id" r.id = .ok m.id ∧
      ExecutionRow.toExecution { e with metricId := r.id } = .ok m.execution := by
  unfold toMetric at read
  obtain ⟨id, readId, rest⟩ := Parsed.bind_ok read
  obtain ⟨filters, -, rest⟩ := Parsed.bind_ok rest
  obtain ⟨groupBy, -, rest⟩ := Parsed.bind_ok rest
  obtain ⟨metricsGroupId, -, rest⟩ := Parsed.bind_ok rest
  obtain ⟨dataSourceId, -, rest⟩ := Parsed.bind_ok rest
  obtain ⟨condition, -, rest⟩ := Parsed.bind_ok rest
  obtain ⟨threshold, -, rest⟩ := Parsed.bind_ok rest
  obtain ⟨circleId, -, rest⟩ := Parsed.bind_ok rest
  obtain ⟨execution, readExecution, rest⟩ := Parsed.bind_ok rest
  obtain ⟨createdAt, -, rest⟩ := Parsed.bind_ok rest
  cases rest
  exact ⟨readId, readExecution⟩

namespace Database

theorem parsed_map {α β : Type} (view : α → β) (read : Parsed α) :
    parsed (read.map view) = (parsed read).map view := by
  cases read <;> rfl

theorem parsed_ok {α : Type} {read : Parsed α} {a : α} :
    parsed read = .ok a ↔ read = .ok a := by
  cases read with
  | error fault =>
      constructor <;> intro impossible <;> cases impossible
  | ok b =>
      constructor <;> intro same <;> cases same <;> rfl

def readFound {α β : Type} (read : α → Parsed β) : Option α → Except Error (Option β)
  | none => .ok none
  | some a => (parsed (read a)).map some

theorem readFound_through {α β γ : Type} {read : α → Parsed β} {readAs : α → Parsed γ}
    {view : β → γ} {found : Option α} (same : ∀ a, found = some a → readAs a = (read a).map view) :
    readFound readAs found = (readFound read found).map (Option.map view) := by
  cases found with
  | none => rfl
  | some a =>
      change (parsed (readAs a)).map some = _
      rw [same a rfl, parsed_map]
      change _ = ((parsed (read a)).map some).map (Option.map view)
      cases parsed (read a) <;> rfl

theorem readFound_map {α β γ : Type} (read : β → Parsed γ) (row : α → β) (found : Option α) :
    readFound read (found.map row) = readFound (fun a => read (row a)) found := by
  cases found <;> rfl

theorem readFound_some_ne {α β : Type} (read : α → Parsed β) (a : α) :
    readFound read (some a) ≠ .ok none := by
  intro missing
  change (parsed (read a)).map some = .ok none at missing
  cases answer : parsed (read a) with
  | error fault =>
      rw [answer] at missing
      cases missing
  | ok b =>
      rw [answer] at missing
      cases missing

theorem readGroups_head {db : Database} {rows : List GroupRow} {groups : List MetricsGroup}
    {g : MetricsGroup} (read : db.readGroups rows = .ok groups)
    (first : groups.head? = some g) : ∃ groupId, db.metricsOf groupId = .ok g.metrics := by
  unfold readGroups at read
  obtain ⟨bare, -, rest⟩ := Parsed.bind_ok read
  have pairs := Parsed.mapM_ok rest
  cases pairs with
  | nil => cases first
  | cons head tail =>
      obtain ⟨metrics, readMetrics, same⟩ := Parsed.bind_ok head
      cases first
      cases same
      exact ⟨_, readMetrics⟩

theorem join_eq_some {db : Database} {r : MetricRow} {joined : MetricRow × ExecutionRow}
    (found : db.join r = some joined) :
    joined.1 = r ∧ db.executions.find? (fun e => e.metricId = r.id) = some joined.2 := by
  obtain ⟨e, present, rfl⟩ := Option.map_eq_some_iff.mp found
  exact ⟨rfl, present⟩

theorem joined_sublist (db : Database) (rows : List MetricRow) :
    ((rows.filterMap db.join).map Prod.fst).Sublist rows := by
  induction rows with
  | nil => exact List.Sublist.refl _
  | cons r rest ih =>
      cases found : db.join r with
      | none =>
          rw [List.filterMap_cons_none found]
          exact ih.cons r
      | some joined =>
          rw [List.filterMap_cons_some found, List.map_cons, (join_eq_some found).1]
          exact ih.cons_cons r

theorem metricsOf_rows {db : Database} {groupId : String} {metrics : List Metric}
    (distinct : (db.metrics.map MetricRow.id).Nodup)
    (read : db.metricsOf groupId = .ok metrics) :
    ∃ rows : List (MetricRow × ExecutionRow),
      (rows.map fun row => row.1.id).Nodup ∧
        (∀ row ∈ rows, row.1 ∈ db.metrics ∧
          db.executions.find? (fun e => e.metricId = row.1.id) = some row.2) ∧
        List.Forall₂ (fun row m => row.1.toMetric row.2 = .ok m) rows metrics := by
  let joined := (db.metrics.filter fun r => r.metricsGroupId = groupId).filterMap db.join
  have ordered : (joined.mergeSort fun a b => a.1.createdAt ≤ b.1.createdAt).Perm joined :=
    List.mergeSort_perm _ _
  refine ⟨_, ?_, ?_, Parsed.mapM_ok read⟩
  · have joinedRows : (joined.map Prod.fst).Sublist db.metrics :=
      (db.joined_sublist _).trans List.filter_sublist
    have ids := distinct.sublist (joinedRows.map MetricRow.id)
    rw [List.map_map] at ids
    exact (ordered.map _).nodup_iff.mpr ids
  · intro row member
    obtain ⟨r, stored, found⟩ := List.mem_filterMap.mp (ordered.subset member)
    obtain ⟨rfl, present⟩ := join_eq_some found
    exact ⟨List.mem_of_mem_filter stored, present⟩

end Database

end RolloutWatch

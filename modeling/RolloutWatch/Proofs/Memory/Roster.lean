import RolloutWatch.Proofs.Memory.Ownership
import RolloutWatch.Proofs.Service.Validity
import RolloutWatch.Proofs.Store.Roster

/-!
The groups and metrics of the store in memory as its turns change them, and the groups that are
read from them.
-/

namespace RolloutWatch.MemoryStore

def kinds : RowKinds MetricsGroup Metric EntityId :=
  { groupKey := MetricsGroup.id
    metricKey := Metric.id
    owner := Metric.metricsGroupId
    titled := MetricsGroup.Titled
    valid := fun m => m.violations.isEmpty = true }

def roster (s : MemoryStore) : Roster MetricsGroup Metric :=
  { groups := s.groups, metrics := s.metrics }

/-- The turn asks for the metric to be removed from an open store. -/
def Removable (turn : Turn) (s : MemoryStore) (id : EntityId) : Prop :=
  turn.call = .removeMetric id ∧ s.closed = false

theorem executionWrites_roster {s after : MemoryStore} (written : ExecutionWrites s after) :
    after.roster = s.roster := by
  obtain ⟨executions, rfl⟩ := executionWrites_tables written
  rfl

theorem mem_removeMetrics {s : MemoryStore} {gone : Metric → Bool} {m : Metric} :
    m ∈ (s.removeMetrics gone).metrics ↔ m ∈ s.metrics ∧ gone m = false := by
  unfold removeMetrics
  rw [List.mem_filter, Bool.not_eq_true']

private theorem rosterStep_of_groupCreated {turn : Turn} {s after : MemoryStore}
    {g : MetricsGroup} (checked : g.violations.isEmpty = true)
    (written : insertMetricsGroup (Groups.prepare g turn.supply).1 s = .ok after) :
    Roster.Step kinds (Removable turn s) s.roster after.roster := by
  obtain ⟨titled, nonempty, valid⟩ := MetricsGroup.valid_iff.mp checked
  obtain ⟨-, -, -, rfl⟩ := insertMetricsGroup_tables written
  refine .groupAdded _ _ ⟨titled.name, titled.circle⟩ ?_ ?_ ?_
  · exact fun m member => Groups.prepare_valid valid member
  · exact fun m member => (Groups.prepare_startsAnew g turn.supply m member).group
  · exact Groups.prepare_nonempty nonempty

theorem rosterStep {turn : Turn} {s after : MemoryStore} (change : Change turn s after) :
    Roster.Step kinds (Removable turn s) s.roster after.roster := by
  cases change with
  | kept => exact .kept
  | closed => exact .kept
  | sourceCreated input written =>
      obtain ⟨sources, rfl⟩ := insertDataSource_tables written
      exact .kept
  | sourceDeleted id deletedAt written =>
      obtain ⟨sources, rfl⟩ := changeSource_tables written
      exact .kept
  | healthSet id health written =>
      obtain ⟨sources, rfl⟩ := changeSource_tables written
      exact .kept
  | groupCreated g drawn written checked => exact rosterStep_of_groupCreated checked written
  | groupUpdated id u written checked =>
      obtain ⟨name, circle⟩ := MetricsGroupUpdate.valid_iff.mp checked
      obtain ⟨-, result⟩ := whenOpen_ok written
      cases result
      exact .groupUpdated _ _ (fun _ => rfl) fun _ _ => ⟨name, circle⟩
  | groupDeleted id written =>
      rcases deleteMetricsGroup_tables written with rfl | rfl
      · exact .kept
      · refine .groupRemoved id (fun g => ?_) fun m => ?_
        · exact List.mem_filter.trans (and_congr_right fun _ => decide_eq_true_iff)
        · exact mem_removeMetrics.trans (and_congr_right fun _ => decide_eq_false_iff_not)
  | metricAdded groupId circleId m drawn written checked =>
      obtain ⟨-, -, rfl⟩ := insertMetric_tables written
      exact .metricAdded _ checked
  | metricUpdated m written checked =>
      obtain ⟨-, result⟩ := whenOpen_ok written
      cases result
      exact .metricUpdated _ _ (fun _ => rfl) fun _ _ => checked
  | metricRemoved id written called =>
      obtain ⟨opened, -⟩ := whenOpen_ok written
      rw [deleteMetric_tables written]
      refine .metricRemoved id ⟨called, opened⟩ rfl fun m => ?_
      exact mem_removeMetrics.trans (and_congr_right fun _ => decide_eq_false_iff_not)
  | executionsWritten writes written =>
      rw [executionWrites_roster written]
      exact .kept

/-! ### Groups that are read -/

theorem returned_iff {g : MetricsGroup} {s : MemoryStore} :
    Groups.Returned g s ↔ s.closed = false ∧ ∃ row ∈ s.groups, s.hydrateGroup row = g := by
  constructor
  · intro returned
    rcases Groups.returned_cases returned with ⟨id, found⟩ | ⟨gs, listed, member⟩
    · obtain ⟨opened, answer⟩ := whenOpen_ok found
      obtain ⟨row, stored, read⟩ := Option.map_eq_some_iff.mp (Except.ok.inj answer)
      exact ⟨opened, row, List.mem_of_find?_eq_some stored, read⟩
    · obtain ⟨opened, answer⟩ := whenOpen_ok listed
      cases answer
      exact ⟨opened, List.mem_map.mp member⟩
  · rintro ⟨opened, row, stored, rfl⟩
    exact Groups.returned_of_listed ((Canary.turn .listGroups 0).world s)
      (whenOpen_of_open _ opened) (List.mem_map_of_mem stored)

theorem hydrate_violations (s : MemoryStore) (m : Metric) :
    (s.hydrate m).violations = m.violations := by
  unfold hydrate
  cases s.executionFor m.id <;> rfl

theorem hydrateGroup_parts {s : MemoryStore} (sound : s.roster.Sound kinds)
    {row : MetricsGroup} (stored : row ∈ s.groups) :
    (s.hydrateGroup row).Titled ∧
      ∀ m ∈ (s.hydrateGroup row).metrics, m.violations.isEmpty = true := by
  have titled : row.Titled := sound.groups row stored
  refine ⟨⟨titled.name, titled.circle⟩, ?_⟩
  intro m member
  obtain ⟨metricRow, chosen, rfl⟩ := List.mem_map.mp member
  rw [hydrate_violations]
  exact sound.metrics metricRow (List.mem_of_mem_filter chosen)

theorem partsValid {s : MemoryStore} (sound : s.roster.Sound kinds) : Groups.PartsValid s := by
  apply Groups.partsValid_of_parts
  intro g returned
  obtain ⟨-, row, stored, rfl⟩ := returned_iff.mp returned
  exact hydrateGroup_parts sound stored

theorem hydrateGroup_nonempty_iff {s : MemoryStore} {row : MetricsGroup} :
    (s.hydrateGroup row).metrics ≠ [] ↔ row.id ∈ s.metrics.map Metric.metricsGroupId := by
  unfold hydrateGroup
  rw [ne_eq, List.map_eq_nil_iff, List.filter_eq_nil_iff]
  simp only [decide_eq_true_eq, not_forall, not_not, exists_prop, List.mem_map]

theorem allValid_iff {s : MemoryStore} (sound : s.roster.Sound kinds) (opened : s.closed = false) :
    Groups.AllValid s ↔ s.roster.Populated kinds := by
  constructor
  · intro valid key listed
    obtain ⟨row, stored, rfl⟩ := List.mem_map.mp listed
    have returned : Groups.Returned (s.hydrateGroup row) s :=
      returned_iff.mpr ⟨opened, row, stored, rfl⟩
    obtain ⟨-, nonempty, -⟩ := MetricsGroup.valid_iff.mp (valid _ returned)
    exact hydrateGroup_nonempty_iff.mp nonempty
  · intro populated g returned
    obtain ⟨-, row, stored, rfl⟩ := returned_iff.mp returned
    obtain ⟨titled, metrics⟩ := hydrateGroup_parts sound stored
    have nonempty := hydrateGroup_nonempty_iff.mpr (populated _ (List.mem_map_of_mem stored))
    exact MetricsGroup.valid_iff.mpr ⟨titled, nonempty, metrics⟩

/-! ### Runs -/

/-- The turn removes the only metric of a group. -/
def RemovesOnly (turn : Turn) (s : MemoryStore) : Prop :=
  ∃ id, Removable turn s id ∧ s.roster.Only kinds id

theorem next_of_removable {turn : Turn} {s : MemoryStore} {id : EntityId}
    (removable : Removable turn s id) :
    turn.next s = s.removeMetrics fun m => m.id = id := by
  obtain ⟨call, engine, supply, registry, clock, log⟩ := turn
  obtain ⟨called, opened⟩ := removable
  cases called
  have write : Store.deleteMetric id s =
      .ok (s.metrics.any fun m => m.id = id, s.removeMetrics fun m => m.id = id) :=
    whenOpen_of_open _ opened
  unfold Turn.next Turn.leaves Turn.world
  change (Groups.removeMetric id _).2.store = _
  rw [Groups.removeMetric_apply]
  simp only [write]

structure Complete (s : MemoryStore) : Prop where
  linked : Linked s
  sound : s.roster.Sound kinds
  populated : s.roster.Populated kinds

theorem sound_next {s : MemoryStore} (turn : Turn) (sound : s.roster.Sound kinds) :
    (turn.next s).roster.Sound kinds :=
  sound.step (rosterStep (turn.change s))

theorem Complete.next {turn : Turn} {s : MemoryStore} (complete : Complete s)
    (spared : ¬RemovesOnly turn s) : Complete (turn.next s) :=
  { linked := complete.linked.change (turn.change s)
    sound := sound_next turn complete.sound
    populated := complete.populated.step complete.linked.metricIds
      (fun id removable only => spared ⟨id, removable, only⟩) (rosterStep (turn.change s)) }

theorem Complete.allValid {s : MemoryStore} (complete : Complete s) : Groups.AllValid s := by
  intro g returned
  obtain ⟨opened, -⟩ := returned_iff.mp returned
  exact (allValid_iff complete.sound opened).mpr complete.populated g returned

/-- The group whose only metric has been removed is still there. -/
theorem Complete.not_allValid {turn : Turn} {s : MemoryStore} (complete : Complete s)
    (removes : RemovesOnly turn s) : ¬Groups.AllValid (turn.next s) := by
  obtain ⟨id, removable, only⟩ := removes
  have sound := sound_next turn complete.sound
  rw [next_of_removable removable] at sound ⊢
  rw [allValid_iff sound removable.2]
  refine only.emptied rfl fun m => ?_
  exact mem_removeMetrics.trans (and_congr_right fun _ => decide_eq_false_iff_not)

theorem empty_complete : Complete empty :=
  { linked := empty_owned.toLinked
    sound := Roster.sound_nil
    populated := Roster.populated_nil }

theorem run_partsValid (turns : List Turn) : Groups.PartsValid (Turn.run turns empty) :=
  partsValid (Turn.invariant_run (fun turn s => sound_next (s := s) turn) turns
    empty_complete.sound)

end RolloutWatch.MemoryStore

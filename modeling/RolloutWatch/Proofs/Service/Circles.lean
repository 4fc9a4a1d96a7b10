import RolloutWatch.Proofs.Memory.Roster
import RolloutWatch.Proofs.Relational.Roster

/-!
Whether every stored metric belongs to a circle. Every stored group has a circle, and a metric
that comes to be stored without one takes the circle of its group. A new definition of a stored
metric is not completed in this way, and so a metric can lose its circle.
-/

namespace RolloutWatch

namespace Metric

def circleIn (m : Metric) (circleId : EntityId) : EntityId :=
  if m.circleId.isNil then circleId else m.circleId

theorem circleIn_ne_nil (m : Metric) {circleId : EntityId} (circle : circleId ≠ .nil) :
    m.circleIn circleId ≠ .nil := by
  unfold circleIn
  split
  · exact circle
  · rename_i own
    exact fun none => own (decide_eq_true none)

end Metric

theorem MetricsGroup.adoptAll_circles (groupId circleId : EntityId) (ms : List Metric)
    (supply : Supply) :
    (adoptAll groupId circleId ms supply).1.map Metric.circleId =
      ms.map fun m => m.circleIn circleId := by
  induction ms generalizing supply with
  | nil => rfl
  | cons m rest ih =>
      unfold adoptAll
      simp only [List.map_cons, ih]
      rfl

theorem MetricsGroup.Titled.circle_ne_nil {g : MetricsGroup} (titled : g.Titled) :
    g.circleId ≠ .nil :=
  of_decide_eq_false titled.circle

namespace Groups

theorem prepare_circles (g : MetricsGroup) (supply : Supply) :
    (prepare g supply).1.metrics.map Metric.circleId =
      g.metrics.map fun m => m.circleIn g.circleId :=
  (MetricsGroup.adoptAll_circles _ _ _ _).trans (renew_map (fun _ _ => rfl) _ _)

theorem prepare_circled {g : MetricsGroup} (circle : g.circleId ≠ .nil) {supply : Supply}
    {m : Metric} (member : m ∈ (prepare g supply).1.metrics) : m.circleId ≠ .nil := by
  have known : m.circleId ∈ g.metrics.map fun m => m.circleIn g.circleId :=
    prepare_circles g supply ▸ List.mem_map_of_mem member
  obtain ⟨submitted, -, same⟩ := List.mem_map.mp known
  rw [← same]
  exact submitted.circleIn_ne_nil circle

variable {σ : Type} [Store σ]

/-- Metrics that are added to the store are in a circle: in that of their group unless they name
one. The group has a circle. -/
structure FillsCircles (s : σ) : Prop where
  create : ∀ (g stored : MetricsGroup) (world after : World σ), world.store = s →
    Groups.create g world = (.ok stored, after) →
    g.circleId ≠ .nil ∧
      stored.metrics.map Metric.circleId = g.metrics.map fun m => m.circleIn g.circleId
  add : ∀ (groupId : EntityId) (m stored : Metric) (world after : World σ), world.store = s →
    Groups.addMetric groupId m world = (.ok stored, after) →
    ∃ g, Store.findMetricsGroup groupId s = .ok (some g) ∧ g.circleId ≠ .nil ∧
      stored.circleId = m.circleIn g.circleId

theorem returned_of_read {id : EntityId} {g : MetricsGroup} {s : σ}
    (read : Store.findMetricsGroup id s = .ok (some g)) : Returned g s := by
  have found : Groups.find id ((Canary.turn .listGroups 0).world s) =
      (.ok g, (Canary.turn .listGroups 0).world s) := by
    rw [find_apply]
    change (Action.required _ _ (Store.findMetricsGroup id s), _) = _
    rw [read]
    rfl
  exact returned_of_found found

theorem PartsValid.circle {s : σ} (valid : PartsValid s) {id : EntityId} {g : MetricsGroup}
    (read : Store.findMetricsGroup id s = .ok (some g)) : g.circleId ≠ .nil :=
  (valid g (returned_of_read read)).1.circle_ne_nil

theorem PartsValid.fillsCircles {s : σ} (valid : PartsValid s) : FillsCircles s where
  create g stored world after same created := by
    rw [create_apply] at created
    cases checked : g.violations.toResult with
    | error e =>
        rw [checked] at created
        cases created
    | ok _ =>
        obtain ⟨titled, -, -⟩ := MetricsGroup.valid_iff.mp (Violations.toResult_ok.mp checked)
        simp only [checked] at created
        cases written : Store.insertMetricsGroup (prepare g world.supply).1 world.store with
        | error e =>
            rw [written] at created
            cases created
        | ok store =>
            rw [written] at created
            cases created
            exact ⟨titled.circle_ne_nil, prepare_circles g world.supply⟩
  add groupId m stored world after same added := by
    rw [addMetric_apply, same] at added
    cases checked : m.violations.toResult with
    | error e =>
        rw [checked] at added
        cases added
    | ok _ =>
        simp only [checked] at added
        cases read : Store.findMetricsGroup groupId s with
        | error e =>
            rw [read] at added
            cases added
        | ok answer =>
            cases answer with
            | none =>
                rw [read] at added
                cases added
            | some g =>
                simp only [read] at added
                refine ⟨g, rfl, valid.circle read, ?_⟩
                split at added
                · cases added
                · cases added
                  rfl

end Groups

theorem Turn.next_of_updateMetric {σ : Type} [Store σ] {turn : Turn} {m : Metric} {s after : σ}
    {found : Bool} (called : turn.call = .updateMetric m) (checked : m.violations.isEmpty = true)
    (written : Store.updateMetric m s = .ok (found, after)) : turn.next s = after := by
  obtain ⟨call, engine, supply, registry, clock, log⟩ := turn
  cases called
  have valid : m.violations.toResult = .ok () := Violations.toResult_ok.mpr checked
  unfold Turn.next Turn.leaves Turn.world
  change (Groups.updateMetric m _).2.store = _
  rw [Groups.updateMetric_apply, valid]
  simp only [written]
  cases found <;> rfl

/-! ### In memory -/

namespace MemoryStore

def GroupsCircled (s : MemoryStore) : Prop :=
  ∀ g ∈ s.groups, g.circleId ≠ .nil

def Circled (s : MemoryStore) : Prop :=
  ∀ m ∈ s.metrics, m.circleId ≠ .nil

instance (s : MemoryStore) : Decidable s.Circled :=
  inferInstanceAs (Decidable (∀ m ∈ s.metrics, _))

/-- The turn takes the circle from a stored metric: it gives the metric a definition without
one, which is valid otherwise. -/
def Uncircles (turn : Turn) (s : MemoryStore) : Prop :=
  ∃ m : Metric, turn.call = .updateMetric m ∧ m.violations.isEmpty = true ∧ m.circleId = .nil ∧
    m.id ∈ s.metricIds ∧ s.closed = false

theorem groupsCircled {s : MemoryStore} (sound : s.roster.Sound kinds) : GroupsCircled s :=
  fun g stored => (sound.groups g stored : g.Titled).circle_ne_nil

theorem Circled.change {turn : Turn} {s after : MemoryStore} (circled : Circled s)
    (sound : s.roster.Sound kinds) (spared : ¬Uncircles turn s) (change : Change turn s after) :
    Circled after := by
  cases change with
  | kept => exact circled
  | closed => exact circled
  | sourceCreated input written =>
      obtain ⟨sources, rfl⟩ := insertDataSource_tables written
      exact circled
  | sourceDeleted id deletedAt written =>
      obtain ⟨sources, rfl⟩ := changeSource_tables written
      exact circled
  | healthSet id health written =>
      obtain ⟨sources, rfl⟩ := changeSource_tables written
      exact circled
  | groupCreated g drawn written checked =>
      obtain ⟨titled, -, -⟩ := MetricsGroup.valid_iff.mp checked
      obtain ⟨-, -, -, rfl⟩ := insertMetricsGroup_tables written
      exact List.forall_mem_append.mpr
        ⟨circled, fun _ member => Groups.prepare_circled titled.circle_ne_nil member⟩
  | groupUpdated id u written =>
      obtain ⟨-, metrics, -⟩ := updateMetricsGroup_links written
      exact fun m member => circled m (metrics ▸ member)
  | groupDeleted id written =>
      rcases deleteMetricsGroup_tables written with rfl | rfl
      · exact circled
      · exact fun m member => circled m (mem_removeMetrics.mp member).1
  | metricAdded groupId circleId m drawn written checked adopts =>
      obtain ⟨id, g, read, -, rfl⟩ := adopts
      obtain ⟨-, -, rfl⟩ := insertMetric_tables written
      exact List.forall_mem_append.mpr ⟨circled, List.forall_mem_singleton.mpr
        (m.circleIn_ne_nil ((partsValid sound).circle read))⟩
  | metricUpdated m written checked called =>
      obtain ⟨opened, result⟩ := whenOpen_ok written
      cases result
      refine Store.forall_updateFirst_of_changed circled fun row present same none => ?_
      have stored := List.mem_map.mpr ⟨row, present, of_decide_eq_true same⟩
      exact spared ⟨m, called, checked, none, stored, opened⟩
  | metricRemoved id written =>
      rw [deleteMetric_tables written]
      exact fun m member => circled m (mem_removeMetrics.mp member).1
  | executionsWritten writes written =>
      obtain ⟨executions, rfl⟩ := executionWrites_tables written
      exact circled

/-- The metric is still there, with the circle of its new definition. -/
theorem Uncircles.not_circled {turn : Turn} {s : MemoryStore} (uncircles : Uncircles turn s) :
    ¬Circled (turn.next s) := by
  obtain ⟨m, called, checked, none, stored, opened⟩ := uncircles
  obtain ⟨row, present, same⟩ := List.mem_map.mp stored
  obtain ⟨_, -, -, changed⟩ := Store.exists_updated (fun row => row.id = m.id)
    (fun row => row.withDefinitionOf m)
    (List.any_eq_true.mpr ⟨row, present, decide_eq_true same⟩)
  rw [Turn.next_of_updateMetric called checked (whenOpen_of_open _ opened)]
  exact fun circled => circled _ changed none

end MemoryStore

/-! ### In a database -/

namespace RelationalStore

open Database

def GroupsCircled (s : RelationalStore) : Prop :=
  ∀ r ∈ s.database.groups, r.circleId ≠ EntityId.nil.text

def Circled (s : RelationalStore) : Prop :=
  ∀ r ∈ s.database.metrics, r.circleId ≠ EntityId.nil.text

instance (s : RelationalStore) : Decidable s.Circled :=
  inferInstanceAs (Decidable (∀ r ∈ s.database.metrics, _))

def Uncircles (turn : Turn) (s : RelationalStore) : Prop :=
  ∃ m : Metric, turn.call = .updateMetric m ∧ m.violations.isEmpty = true ∧ m.circleId = .nil ∧
    m.id.text ∈ s.database.metrics.map MetricRow.id ∧ s.closed = false

theorem text_ne_nil {id : EntityId} (named : id ≠ .nil) : id.text ≠ EntityId.nil.text :=
  fun same => named (EntityId.text_injective same)

theorem Orderly.groupsCircled {s : RelationalStore} (orderly : Orderly s) : GroupsCircled s := by
  intro r stored
  obtain ⟨g, rfl, titled⟩ := orderly.sound.groups r stored
  exact text_ne_nil titled.circle_ne_nil

theorem Circled.change {turn : Turn} {s after : RelationalStore} (circled : Circled s)
    (orderly : Orderly s) (spared : ¬Uncircles turn s) (change : Change turn s after) :
    Circled after := by
  have tables := tablesChange change
  unfold Circled at *
  generalize after.database = database at tables ⊢
  cases tables with
  | kept => exact circled
  | sourcesWritten called sources => exact circled
  | groupAdded g checked anew =>
      obtain ⟨titled, -, -⟩ := MetricsGroup.valid_iff.mp checked
      refine List.forall_mem_append.mpr ⟨circled, List.forall_mem_map.mpr fun m member => ?_⟩
      exact text_ne_nil (Groups.prepare_circled titled.circle_ne_nil member)
  | groupUpdated id u checked => exact circled
  | groupDeleted id => exact fun r member => circled r (List.mem_of_mem_filter member)
  | metricAdded m checked groupId circleId owned adopts =>
      obtain ⟨id, g, read, -, rfl⟩ := adopts
      exact List.forall_mem_append.mpr ⟨circled, List.forall_mem_singleton.mpr
        (text_ne_nil (m.circleIn_ne_nil (orderly.partsValid.circle read)))⟩
  | metricUpdated m checked called opened =>
      refine Store.forall_updateFirst_of_changed circled fun row present same => ?_
      have stored := List.mem_map.mpr ⟨row, present, of_decide_eq_true same⟩
      exact text_ne_nil fun none => spared ⟨m, called, checked, none, stored, opened⟩
  | metricRemoved id called opened => exact fun r member => circled r (List.mem_of_mem_filter member)
  | executionsWritten executions written => exact circled

theorem Uncircles.not_circled {turn : Turn} {s : RelationalStore}
    (uncircles : Uncircles turn s) : ¬Circled (turn.next s) := by
  obtain ⟨m, called, checked, none, stored, opened⟩ := uncircles
  obtain ⟨row, present, same⟩ := List.mem_map.mp stored
  obtain ⟨_, -, -, changed⟩ := Store.exists_updated (fun r : MetricRow => r.id = m.id.text)
    (fun r => r.withDefinitionOf m)
    (List.any_eq_true.mpr ⟨row, present, decide_eq_true same⟩)
  rw [Turn.next_of_updateMetric called checked (whenOpen_of_open _ opened)]
  exact fun circled => circled _ changed (congrArg EntityId.text none)

end RelationalStore

/-! ### Runs -/

namespace Groups

/-- Whatever the services do to an empty store, every stored group has a circle, and metrics that
are added get the circle of their group unless they name one. All stored metrics have circles at
every moment exactly if no turn gives a stored metric a definition without one, and so it is in
memory and in a database. -/
theorem stored_metrics_circled (turns : List Turn) :
    (Turn.Always MemoryStore.GroupsCircled turns .empty ∧
        Turn.Always FillsCircles turns MemoryStore.empty ∧
        (Turn.Always MemoryStore.Circled turns .empty ↔
          Turn.Never MemoryStore.Uncircles turns .empty)) ∧
      Turn.Always RelationalStore.GroupsCircled turns (.onDatabase .empty) ∧
        Turn.Always FillsCircles turns (RelationalStore.onDatabase .empty) ∧
        (Turn.Always RelationalStore.Circled turns (.onDatabase .empty) ↔
          Turn.Never RelationalStore.Uncircles turns (.onDatabase .empty)) := by
  have inMemory : MemoryStore.empty.roster.Sound MemoryStore.kinds ∧
      MemoryStore.empty.Circled :=
    ⟨Roster.sound_nil, fun _ member => absurd member List.not_mem_nil⟩
  have inDatabase : (RelationalStore.onDatabase .empty).Orderly ∧
      (RelationalStore.onDatabase .empty).Circled :=
    ⟨RelationalStore.created_complete.toOrderly, fun _ member => absurd member List.not_mem_nil⟩
  have keepsSound (turn : Turn) (s : MemoryStore) (sound : s.roster.Sound MemoryStore.kinds) :
      (turn.next s).roster.Sound MemoryStore.kinds := MemoryStore.sound_next turn sound
  have keepsOrderly (turn : Turn) (s : RelationalStore) (orderly : s.Orderly) :
      (turn.next s).Orderly := orderly.next turn
  have keeps (turn : Turn) (s : MemoryStore)
      (earlier : s.roster.Sound MemoryStore.kinds ∧ s.Circled)
      (spared : ¬MemoryStore.Uncircles turn s) :
      (turn.next s).roster.Sound MemoryStore.kinds ∧ (turn.next s).Circled :=
    ⟨MemoryStore.sound_next turn earlier.1,
      earlier.2.change earlier.1 spared (turn.change s)⟩
  have keepsRows (turn : Turn) (s : RelationalStore) (earlier : s.Orderly ∧ s.Circled)
      (spared : ¬RelationalStore.Uncircles turn s) :
      (turn.next s).Orderly ∧ (turn.next s).Circled :=
    ⟨earlier.1.next turn, earlier.2.change earlier.1 spared (turn.change s)⟩
  refine ⟨⟨?_, ?_, ?_, ?_⟩, ?_, ?_, ?_, ?_⟩
  · exact Turn.always_of_invariant keepsSound (fun s => MemoryStore.groupsCircled) inMemory.1
  · exact Turn.always_of_invariant keepsSound
      (fun s sound => (MemoryStore.partsValid sound).fillsCircles) inMemory.1
  · exact Turn.never_of_always keeps (fun _ _ _ uncircles => uncircles.not_circled) inMemory
  · exact Turn.always_of_never keeps (fun _ earlier => earlier.2) inMemory
  · exact Turn.always_of_invariant keepsOrderly (fun s orderly => orderly.groupsCircled)
      inDatabase.1
  · exact Turn.always_of_invariant keepsOrderly
      (fun s orderly => orderly.partsValid.fillsCircles) inDatabase.1
  · exact Turn.never_of_always keepsRows (fun _ _ _ uncircles => uncircles.not_circled) inDatabase
  · exact Turn.always_of_never keepsRows (fun _ earlier => earlier.2) inDatabase

def moved : List Turn :=
  Canary.turns ++
    [Canary.turn (.updateMetric { Canary.metric 3 with circleId := .ofNat 6 }) 300]

theorem moved_canary_circled :
    Turn.Always MemoryStore.Circled moved .empty ∧
      Turn.Always RelationalStore.Circled moved (.onDatabase .empty) := by
  obtain ⟨⟨-, -, inMemory⟩, -, -, inDatabase⟩ := stored_metrics_circled moved
  refine ⟨inMemory.mpr ⟨?_, ?_, ?_, trivial⟩, inDatabase.mpr ⟨?_, ?_, ?_, trivial⟩⟩ <;>
    rintro ⟨m, called, -, none, -⟩ <;> cases called <;> cases none

/-- A canary whose second metric gets a definition that names no circle. -/
def uncircled : List Turn :=
  Canary.turns ++ [Canary.turn (.updateMetric (Canary.metric 3)) 300]

/-- The update is answered with the metric as it is stored then. -/
theorem uncircled_canary_not_circled :
    ¬MemoryStore.Circled (Turn.run uncircled .empty) ∧
      ¬RelationalStore.Circled (Turn.run uncircled (.onDatabase .empty)) := by
  constructor <;> decide +kernel

end Groups

end RolloutWatch

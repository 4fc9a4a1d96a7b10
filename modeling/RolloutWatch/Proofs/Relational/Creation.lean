import RolloutWatch.Proofs.Metric.Validity
import RolloutWatch.Proofs.Relational.Reading

/-!
What `create` stores in a database is read back. The metrics of a group are read in the order of
their times of creation, whichever order the document has, and nothing that could be read before
is read differently afterwards. Times outside the years that are written with four digits are
stored but not read, so that all of this is about times in common years.
-/

namespace RolloutWatch

namespace Groups

theorem prepare_adopted {g : MetricsGroup} {valid : Unit}
    (checked : g.violations.toResult = .ok valid) (supply : Supply) :
    (prepare g supply).1.Adopted := by
  have anew := prepare_startsAnew g supply
  have thresholds := prepare_map Metric.threshold g supply (fun _ _ => rfl) fun _ _ => rfl
  refine
    { groups := fun m member => (anew m member).group
      names := fun m member => (anew m member).names
      settled := fun m member => ?_ }
  have known : m.threshold ∈ g.metrics.map Metric.threshold :=
    thresholds ▸ List.mem_map_of_mem member
  obtain ⟨submitted, present, same⟩ := List.mem_map.mp known
  have finite := MetricsGroup.finite_of_valid checked present
  rw [same] at finite
  have threshold := Binary64.settled_of_not_isNaN (Binary64.isNaN_of_finite finite)
  have lastValue : m.execution.lastValue.settled = m.execution.lastValue := by
    rw [(anew m member).lastValue]
    exact Binary64.settled_of_not_isNaN (by decide +kernel)
  unfold Metric.settled MetricExecution.settled
  rw [threshold, lastValue]

end Groups

namespace RelationalStore

open Database

theorem Reachable.wellFormed {s : RelationalStore} (reachable : Reachable s) :
    WellFormed s.database := by
  induction reachable with
  | created => exact empty_wellFormed
  | next turn reachable ih => exact wellFormed_change ih (turn.change _)
  | reopened reachable ih => exact ih

/-! ### Reads of groups -/

theorem findMetricsGroup_addGroup {s : RelationalStore} {g : MetricsGroup}
    (opened : s.closed = false) (formed : WellFormed s.database) (admits : s.database.Admits g)
    (adopted : g.Adopted) (common : g.InCommonYears) :
    Store.findMetricsGroup g.id { s with database := s.database.addGroup g } =
      .ok (some g.inTimeOrder) := by
  have noneBefore : s.database.groups.filter (fun r => r.id = g.id.text) = [] := by
    rw [List.filter_eq_nil_iff]
    intro r stored same
    exact admits.newGroup r stored (of_decide_eq_true same)
  have rows : (s.database.addGroup g).groups.filter (fun r => r.id = g.id.text) =
      [.ofGroup g] := by
    refine (List.filter_append _ _).trans ?_
    rw [noneBefore, List.nil_append]
    exact List.filter_eq_self.mpr (List.forall_mem_singleton.mpr (decide_eq_true rfl))
  have read : (s.database.addGroup g).readGroups [.ofGroup g] = .ok [g.inTimeOrder] :=
    readGroups_ok.mpr (Parsed.mapM_ok_iff.mpr
      (.cons (readGroup_addGroup_own formed admits adopted common) .nil))
  refine (whenOpen_of_open _ opened).trans ?_
  simp only
  rw [rows, read]
  rfl

theorem listMetricsGroups_addGroup {s : RelationalStore} {g : MetricsGroup}
    (formed : WellFormed s.database) (admits : s.database.Admits g) (adopted : g.Adopted)
    (common : g.InCommonYears) {listed : List MetricsGroup}
    (before : Store.listMetricsGroups s = .ok listed) :
    (∀ h ∈ listed, h.id ≠ g.id) ∧
      ∃ later, Store.listMetricsGroups { s with database := s.database.addGroup g } = .ok later ∧
        later.Perm (g.inTimeOrder :: listed) := by
  obtain ⟨opened, read⟩ := listMetricsGroups_ok.mp before
  have sorted := List.mergeSort_perm s.database.groups fun a b => a.createdAt ≤ b.createdAt
  have sortedLater := List.mergeSort_perm (s.database.groups ++ [GroupRow.ofGroup g])
    fun a b => a.createdAt ≤ b.createdAt
  have pairs := Parsed.mapM_ok read
  constructor
  · intro h member same
    obtain ⟨r, chosen, readRow⟩ := Parsed.exists_source pairs member
    have stored := sorted.subset chosen
    apply admits.newGroup r stored
    rw [formed.readGroup_id stored readRow]
    exact congrArg EntityId.text same
  · have others : List.Forall₂ (fun r h => (s.database.addGroup g).readGroup r = .ok h)
        (s.database.groups.mergeSort fun a b => a.createdAt ≤ b.createdAt) listed := by
      refine ((List.forall₂_and_left _ _).mpr ⟨fun r chosen => sorted.subset chosen, pairs⟩).imp ?_
      rintro r h ⟨stored, readRow⟩
      exact readGroup_addGroup_other formed admits adopted stored readRow
    have all : (GroupRow.ofGroup g :: s.database.groups.mergeSort
        fun a b => a.createdAt ≤ b.createdAt).mapM (s.database.addGroup g).readGroup =
          .ok (g.inTimeOrder :: listed) :=
      Parsed.mapM_ok_iff.mpr
        (.cons (readGroup_addGroup_own formed admits adopted common) others)
    have rows : ((s.database.groups ++ [GroupRow.ofGroup g]).mergeSort
        fun a b => a.createdAt ≤ b.createdAt).Perm
          (.ofGroup g :: s.database.groups.mergeSort fun a b => a.createdAt ≤ b.createdAt) :=
      sortedLater.trans ((List.perm_append_singleton _ _).trans (sorted.symm.cons _))
    obtain ⟨later, readLater, same⟩ := Parsed.mapM_perm rows all
    exact ⟨later, listMetricsGroups_ok.mpr ⟨opened, readLater⟩, same⟩

theorem listMetricsGroups_of_common {s : RelationalStore} (opened : s.closed = false)
    (formed : WellFormed s.database) (common : s.database.InCommonYears) :
    ∃ listed, Store.listMetricsGroups s = .ok listed := by
  have each : ∀ r ∈ s.database.groups.mergeSort (fun a b => a.createdAt ≤ b.createdAt),
      ∃ g, s.database.readGroup r = .ok g := by
    intro r chosen
    exact readGroup_of_common formed common ((List.mergeSort_perm _ _).subset chosen)
  obtain ⟨listed, read⟩ := Parsed.mapM_exists each
  exact ⟨listed, listMetricsGroups_ok.mpr ⟨opened, read⟩⟩

end RelationalStore

namespace Groups

open RelationalStore

theorem create_ok {submitted g : MetricsGroup} {world after : World RelationalStore}
    (created : Groups.create submitted world = (.ok g, after)) :
    g.Adopted ∧ world.store.database.Admits g ∧ world.store.closed = false ∧
      after.store = { world.store with database := world.store.database.addGroup g } := by
  rw [create_apply] at created
  cases checked : submitted.violations.toResult with
  | error e =>
      rw [checked] at created
      cases created
  | ok valid =>
      simp only [checked] at created
      cases written : Store.insertMetricsGroup (prepare submitted world.supply).1 world.store with
      | error e =>
          rw [written] at created
          cases created
      | ok store =>
          rw [written] at created
          cases created
          obtain ⟨rfl, newGroup, distinct, free⟩ := insertMetricsGroup_tables written
          exact ⟨prepare_adopted checked world.supply, ⟨newGroup, distinct, free⟩,
            (whenOpen_ok written).1, rfl⟩

theorem find_created {submitted g : MetricsGroup} {world after : World RelationalStore}
    (formed : world.store.database.WellFormed)
    (created : Groups.create submitted world = (.ok g, after)) (common : g.InCommonYears) :
    Groups.find g.id after = (.ok g.inTimeOrder, after) := by
  obtain ⟨adopted, admits, opened, store⟩ := create_ok created
  rw [find_apply, store, findMetricsGroup_addGroup opened formed admits adopted common]
  rfl

/-- A group that has been created is found with its metrics in the order of their times, which is
the order of the document if this follows the times. All groups can still be listed if they
could be before, as they can if all times lie in common years, and the listing has the group
once and the other groups as they were. -/
theorem created_group_is_read_back {submitted g : MetricsGroup}
    {world after : World RelationalStore} (reachable : Reachable world.store)
    (created : Groups.create submitted world = (.ok g, after)) (common : g.InCommonYears) :
    Groups.find g.id after = (.ok g.inTimeOrder, after) ∧
      (g.inTimeOrder = g ↔
        g.metrics.Pairwise fun a b => b.createdAt.before a.createdAt = false) ∧
      (world.store.database.InCommonYears →
        ∃ listed, Groups.findAll world = (.ok listed, world)) ∧
      ∀ listed, Groups.findAll world = (.ok listed, world) →
        ∃ later, Groups.findAll after = (.ok later, after) ∧
          later.filter (fun h => h.id = g.id) = [g.inTimeOrder] ∧
          later.Perm (g.inTimeOrder :: listed) := by
  have formed := reachable.wellFormed
  obtain ⟨adopted, admits, opened, store⟩ := create_ok created
  refine ⟨find_created formed created common, MetricsGroup.inTimeOrder_eq_self, ?_, ?_⟩
  · intro commonBefore
    obtain ⟨listed, read⟩ := listMetricsGroups_of_common opened formed commonBefore
    exact ⟨listed, Prod.ext read rfl⟩
  · intro listed before
    have readBefore : Store.listMetricsGroups world.store = .ok listed := congrArg Prod.fst before
    obtain ⟨others, later, readLater, same⟩ :=
      listMetricsGroups_addGroup formed admits adopted common readBefore
    refine ⟨later, ?_, ?_, same⟩
    · refine Prod.ext ?_ rfl
      change Store.listMetricsGroups after.store = _
      rw [store]
      exact readLater
    · have chosen := same.filter fun h => h.id = g.id
      have noneBefore : listed.filter (fun h => h.id = g.id) = [] := by
        rw [List.filter_eq_nil_iff]
        intro h member sameId
        exact others h member (of_decide_eq_true sameId)
      have own : decide (g.inTimeOrder.id = g.id) = true := decide_eq_true rfl
      rw [List.filter_cons, if_pos own, noneBefore] at chosen
      exact List.perm_singleton.mp chosen

def canaryDatabase : World RelationalStore :=
  (Canary.turn .listGroups 200).world
    ((Canary.turn (.createGroup Canary.group) 100).next (.onDatabase .empty))

/-- Another group, whose second metric has been created before its first one. -/
def laterGroup : MetricsGroup :=
  { Canary.group with
    id := .ofNat 8
    metrics :=
      [{ Canary.metric 3 with
          createdAt := ⟨{ Instant.epoch.civil with day := 2 }, by decide +kernel⟩ },
        Canary.metric 7] }

/-- The metrics come back the other way round, and the canary stays beside them. -/
theorem created_pair_is_read_back :
    ∃ g listed after later,
      Groups.findAll canaryDatabase = (.ok listed, canaryDatabase) ∧ listed.length = 1 ∧
        Groups.create laterGroup canaryDatabase = (.ok g, after) ∧ g.metrics.length = 2 ∧
        Groups.find g.id after = (.ok g.inTimeOrder, after) ∧ g.inTimeOrder ≠ g ∧
        Groups.findAll after = (.ok later, after) ∧
        later.filter (fun h => h.id = g.id) = [g.inTimeOrder] ∧
        later.Perm (g.inTimeOrder :: listed) := by
  have succeeds : (Groups.create laterGroup canaryDatabase).1.isOk = true := by
    decide +kernel
  obtain ⟨g, after, created⟩ := Action.exists_ok succeeds
  have stored : (Groups.create laterGroup canaryDatabase).1 =
      .ok (prepare laterGroup canaryDatabase.supply).1 := by decide +kernel
  rw [created] at stored
  have prepared : g = (prepare laterGroup canaryDatabase.supply).1 := Except.ok.inj stored
  have common : g.InCommonYears := by
    rw [prepared]
    decide +kernel
  have unordered :
      ¬g.metrics.Pairwise fun a b => b.createdAt.before a.createdAt = false := by
    rw [prepared]
    decide +kernel
  have count : g.metrics.length = 2 := by
    rw [prepared]
    decide +kernel
  have before : canaryDatabase.store.database.InCommonYears := by
    apply Database.inCommonYears_of_moment .epoch <;> decide +kernel
  have reachable : Reachable canaryDatabase.store := .next _ .created
  obtain ⟨found, order, exists_listed, all⟩ := created_group_is_read_back reachable created common
  obtain ⟨listed, read⟩ := exists_listed before
  have single : (Groups.findAll canaryDatabase).1.map List.length = .ok 1 := by decide +kernel
  rw [read] at single
  obtain ⟨later, readLater, once, kept⟩ := all listed read
  exact ⟨g, listed, after, later, read, Except.ok.inj single, created, count, found,
    mt order.mp unordered, readLater, once, kept⟩

def emptyDatabase : World RelationalStore :=
  (Canary.turn .listGroups 0).world (.onDatabase .empty)

/-! ### Documents that are read back differently -/

theorem parse_store {document : List UInt8} {submitted : MetricsGroup}
    {world between : World RelationalStore}
    (parsed : Groups.parse document world = (.ok submitted, between)) :
    between.store = world.store := by
  unfold Groups.parse at parsed
  split at parsed
  · cases parsed
    rfl
  · cases parsed

def storeDocument (document : List UInt8) : Action RelationalStore MetricsGroup := do
  let submitted ← Groups.parse document
  Groups.create submitted

theorem exists_stored (document : List UInt8) (world : World RelationalStore)
    (property : MetricsGroup → World RelationalStore → Bool)
    (holds : (match storeDocument document world with
      | (.ok g, after) => property g after
      | (.error _, _) => false) = true) :
    ∃ submitted between g after, Groups.parse document world = (.ok submitted, between) ∧
      Groups.create submitted between = (.ok g, after) ∧ property g after = true := by
  rcases outcome : storeDocument document world with ⟨answer, after⟩
  rw [outcome] at holds
  cases answer with
  | error e => cases holds
  | ok g =>
      obtain ⟨submitted, between, parsed, created⟩ := Action.bind_ok outcome
      exact ⟨submitted, between, g, after, parsed, created, holds⟩

def documentOfMetric (createdAt : String) : Json.Value :=
  .object
    [("nickname", .text "errors"), ("dataSourceId", (EntityId.ofNat 1).toJson),
      ("metric", .text "errors"), ("condition", .text "GREATER_THAN"),
      ("createdAt", .text createdAt)]

def documentOf (metricTimes : List String) : List UInt8 :=
  (Json.Value.object
    [("name", .text "canary"), ("circleId", (EntityId.ofNat 4).toJson),
      ("metrics", .array (metricTimes.map documentOfMetric))]).bytes

/-- Metrics in a document that does not follow their times come back in another order. A time
in a year of five digits is stored, and then neither this group nor the list of all groups can
be read. -/
theorem documents_not_read_back :
    (∃ submitted between g after,
      Groups.parse (documentOf ["2024-01-02T00:00:00Z", "2024-01-01T00:00:00Z"])
          emptyDatabase = (.ok submitted, between) ∧
        Groups.create submitted between = (.ok g, after) ∧ (Groups.find g.id after).1 ≠ .ok g) ∧
      ∃ submitted between g after,
        Groups.parse (documentOf ["+10000-01-01T00:00:00Z"]) emptyDatabase =
            (.ok submitted, between) ∧
          Groups.create submitted between = (.ok g, after) ∧
          (Groups.find g.id after).1.isOk = false ∧ (Groups.findAll after).1.isOk = false := by
  constructor
  · obtain ⟨submitted, between, g, after, parsed, created, stored⟩ := exists_stored
      (documentOf ["2024-01-02T00:00:00Z", "2024-01-01T00:00:00Z"]) emptyDatabase
      (fun g _ => g.InCommonYears ∧
        ¬ g.metrics.Pairwise fun a b => b.createdAt.before a.createdAt = false)
      (by decide +kernel)
    obtain ⟨common, unordered⟩ := of_decide_eq_true stored
    have formed : between.store.database.WellFormed := by
      rw [parse_store parsed]
      exact Database.empty_wellFormed
    refine ⟨submitted, between, g, after, parsed, created, fun same => unordered ?_⟩
    rw [find_created formed created common] at same
    exact MetricsGroup.inTimeOrder_eq_self.mp (Except.ok.inj same)
  · obtain ⟨submitted, between, g, after, parsed, created, stored⟩ := exists_stored
      (documentOf ["+10000-01-01T00:00:00Z"]) emptyDatabase
      (fun g after => (Groups.find g.id after).1.isOk = false ∧
        (Groups.findAll after).1.isOk = false)
      (by decide +kernel)
    exact ⟨submitted, between, g, after, parsed, created, of_decide_eq_true stored⟩

end Groups

end RolloutWatch

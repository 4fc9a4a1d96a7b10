import RolloutWatch.Proofs.Memory.Ownership

/-!
The life of an execution in the store in memory. It begins anew with its metric, keeps its
identity while the metric is stored, and is touched by nothing but writes of executions.
-/

namespace RolloutWatch

namespace MemoryStore

def idsInUse (s : MemoryStore) : List EntityId :=
  s.sources.map DataSource.id ++ s.groups.map MetricsGroup.id ++ s.metricIds ++
    s.executions.map MetricExecution.id

theorem executionId_inUse {s : MemoryStore} {e : MetricExecution}
    (stored : e ∈ s.executions) : e.id ∈ s.idsInUse :=
  List.mem_append_right _ (List.mem_map_of_mem stored)

end MemoryStore

namespace Turn

/-- The turn takes identifiers that differ from each other and are not in use. -/
def DrawsFresh (turn : Turn) (s : MemoryStore) : Prop :=
  (turn.draws s).Nodup ∧ ∀ id ∈ turn.draws s, id ∉ s.idsInUse

instance (turn : Turn) (s : MemoryStore) : Decidable (turn.DrawsFresh s) :=
  inferInstanceAs (Decidable (_ ∧ _))

def FreshRun : List Turn → MemoryStore → Prop
  | [], _ => True
  | turn :: rest, s => turn.DrawsFresh s ∧ FreshRun rest (turn.next s)

theorem freshRun_append {turns later : List Turn} {s : MemoryStore} :
    FreshRun (turns ++ later) s ↔ FreshRun turns s ∧ FreshRun later (run turns s) := by
  induction turns generalizing s with
  | nil => exact ⟨fun fresh => ⟨trivial, fresh⟩, fun fresh => fresh.2⟩
  | cons turn rest ih => exact (and_congr_right fun _ => ih).trans and_assoc.symm

instance decidableFreshRun : (turns : List Turn) → (s : MemoryStore) →
    Decidable (FreshRun turns s)
  | [], _ => .isTrue trivial
  | turn :: rest, s =>
      have := decidableFreshRun rest (turn.next s)
      inferInstanceAs (Decidable (_ ∧ _))

/-- The metric is stored before the run, between its turns and after it. -/
def StoredThroughout (id : EntityId) : List Turn → MemoryStore → Prop
  | [], s => id ∈ s.metricIds
  | turn :: rest, s => id ∈ s.metricIds ∧ StoredThroughout id rest (turn.next s)

instance decidableStoredThroughout (id : EntityId) : (turns : List Turn) →
    (s : MemoryStore) → Decidable (StoredThroughout id turns s)
  | [], s => inferInstanceAs (Decidable (_ ∈ s.metricIds))
  | turn :: rest, s =>
      have := decidableStoredThroughout id rest (turn.next s)
      inferInstanceAs (Decidable (_ ∧ _))

end Turn

namespace MemoryStore

theorem executionFor_names {s : MemoryStore} {id : EntityId} {e : MetricExecution}
    (found : s.executionFor id = some e) : e ∈ s.executions ∧ e.metricId = id :=
  Store.find_some_key MetricExecution.metricId found

theorem Linked.exists_execution {s : MemoryStore} (linked : Linked s) {id : EntityId}
    (stored : id ∈ s.metricIds) : ∃ e, s.executionFor id = some e := by
  rw [← linked.executions] at stored
  exact Store.exists_find_of_mem_keys MetricExecution.metricId id s.executions stored

theorem Linked.metricId_of_found {s : MemoryStore} (linked : Linked s) {id : EntityId}
    {e : MetricExecution} (found : s.executionFor id = some e) : id ∈ s.metricIds := by
  obtain ⟨stored, names⟩ := executionFor_names found
  rw [← linked.executions, ← names]
  exact List.mem_map_of_mem stored

theorem Linked.executionFor_eq_none {s : MemoryStore} (linked : Linked s) {id : EntityId}
    (absent : id ∉ s.metricIds) : s.executionFor id = none := by
  cases found : s.executionFor id with
  | none => rfl
  | some e => exact absurd (linked.metricId_of_found found) absent

theorem hydrate_of_found {s : MemoryStore} {m : Metric} {e : MetricExecution}
    (found : s.executionFor m.id = some e) : s.hydrate m = { m with execution := e } := by
  unfold hydrate
  rw [found]

theorem hydrate_execution {s : MemoryStore} (linked : Linked s) {m : Metric}
    (stored : m ∈ s.metrics) :
    (s.hydrate m).execution ∈ s.executions ∧ (s.hydrate m).execution.metricId = m.id ∧
      s.executionFor m.id = some (s.hydrate m).execution := by
  obtain ⟨e, found⟩ := linked.exists_execution (List.mem_map_of_mem stored)
  obtain ⟨present, names⟩ := executionFor_names found
  rw [hydrate_of_found found]
  exact ⟨present, names, found⟩

theorem executionFor_identity (s : MemoryStore) (id : EntityId) :
    (s.executionFor id).map MetricExecution.identity =
      s.links.executions.find? fun identity => identity.2.1 = id := by
  simp only [links, List.find?_map]
  rfl

theorem executionFor_append (s : MemoryStore) (added : List MetricExecution) (id : EntityId) :
    (s.executions ++ added).find? (fun e => e.metricId = id) =
      (s.executionFor id).or (added.find? fun e => e.metricId = id) :=
  List.find?_append

/-! ### One turn -/

/-- A turn that draws fresh identifiers keeps the executions apart. -/
theorem Owned.change {s after : MemoryStore} {turn : Turn} (owned : Owned s)
    (fresh : turn.DrawsFresh s) (change : Change turn s after) : Owned after := by
  refine { owned.toLinked.change change with executionIds := ?_ }
  cases tableChange change with
  | linksKept links executions =>
      rw [executions]
      exact owned.executionIds
  | executionsWritten writes written =>
      exact (owned.of_links (executionWrites_links written)).executionIds
  | metricsAdded gs ms groupIds newGroups metricIds newMetrics owners anew drawn =>
      rw [List.map_append, List.map_map]
      refine owned.executionIds.append (fresh.1.sublist drawn) ?_
      intro id stored added
      obtain ⟨e, member, same⟩ := List.mem_map.mp stored
      apply fresh.2 id (drawn.subset added)
      rw [← same]
      exact executionId_inUse member
  | metricsRemoved groups gone groupsKept owners =>
      exact owned.executionIds.sublist (List.filter_sublist.map _)

/-- The execution of a metric that is stored before and after a turn is the same after it,
unless the turn's call is one that writes executions. -/
theorem Linked.executionFor_kept {s after : MemoryStore} {turn : Turn} (linked : Linked s)
    (change : Change turn s after) :
    ((turn.call.setsExecution = true ∨ turn.call.keepsReadings = true) ∧
        ExecutionWrites s after) ∨
      ∀ id ∈ s.metricIds, id ∈ after.metricIds → after.executionFor id = s.executionFor id := by
  cases tableChange change with
  | executionsWritten writes written => exact .inl ⟨writes, written⟩
  | linksKept links executions =>
      refine .inr fun id _ _ => ?_
      unfold executionFor
      rw [executions]
  | metricsAdded gs ms groupIds newGroups metricIds newMetrics owners anew drawn =>
      refine .inr fun id stored _ => ?_
      obtain ⟨e, found⟩ := linked.exists_execution stored
      refine (executionFor_append s _ id).trans ?_
      rw [found, Option.some_or]
  | metricsRemoved groups gone groupsKept owners =>
      exact .inr fun id _ stays => executionFor_removeMetrics linked.metricIds gone stays

/-- Only metrics that start anew come to be stored, and their executions take identifiers that
the turn draws. -/
theorem Linked.executionFor_new {s after : MemoryStore} {turn : Turn} (linked : Linked s)
    (change : Change turn s after) {id : EntityId} (absent : id ∉ s.metricIds)
    (stored : id ∈ after.metricIds) :
    ∃ e, after.executionFor id = some e ∧ e.status = .active ∧ e.lastValue = .zero ∧
      e.id ∈ turn.draws s ∧ turn.supply.Reads e.createdAt := by
  cases tableChange change with
  | executionsWritten writes written =>
      rw [metricIds_eq_links, executionWrites_links written, ← metricIds_eq_links] at stored
      exact absurd stored absent
  | linksKept links executions =>
      rw [metricIds_eq_links, links, ← metricIds_eq_links] at stored
      exact absurd stored absent
  | metricsRemoved groups gone groupsKept owners =>
      exact absurd ((List.filter_sublist.map _).subset stored) absent
  | metricsAdded gs ms groupIds newGroups metricIds newMetrics owners anew drawn =>
      have added : id ∈ ms.map Metric.id := by
        change id ∈ (s.metrics ++ ms).map Metric.id at stored
        rw [List.map_append] at stored
        exact (List.mem_append.mp stored).resolve_left absent
      have named : id ∈ (ms.map Metric.execution).map MetricExecution.metricId := by
        rw [List.map_map]
        obtain ⟨m, member, same⟩ := List.mem_map.mp added
        refine List.mem_map.mpr ⟨m, member, ?_⟩
        rw [← same]
        exact (anew m member).names
      obtain ⟨e, found⟩ := Store.exists_find_of_mem_keys MetricExecution.metricId id _ named
      obtain ⟨m, member, rfl⟩ :=
        List.mem_map.mp (Store.find_some_key MetricExecution.metricId found).1
      refine ⟨m.execution, ?_, (anew m member).status, (anew m member).lastValue, ?_,
        (anew m member).createdAt⟩
      · refine (executionFor_append s _ id).trans ?_
        rw [linked.executionFor_eq_none absent, Option.none_or]
        exact found
      · exact drawn.subset (List.mem_map_of_mem member)

theorem Linked.identity_kept {s after : MemoryStore} {turn : Turn} (linked : Linked s)
    (change : Change turn s after) {id : EntityId} (before : id ∈ s.metricIds)
    (stays : id ∈ after.metricIds) :
    (after.executionFor id).map MetricExecution.identity =
      (s.executionFor id).map MetricExecution.identity := by
  rcases linked.executionFor_kept change with ⟨-, written⟩ | kept
  · rw [executionFor_identity, executionFor_identity, executionWrites_links written]
  · rw [kept id before stays]

/-! ### Runs -/

theorem Owned.run {s : MemoryStore} (owned : Owned s) {turns : List Turn}
    (fresh : Turn.FreshRun turns s) : Owned (Turn.run turns s) := by
  induction turns generalizing s with
  | nil => exact owned
  | cons turn rest ih => exact ih (owned.change fresh.1 (turn.change s)) fresh.2

theorem owned_of_run {s : MemoryStore} {turns : List Turn} (fresh : Turn.FreshRun turns .empty)
    (reached : s = Turn.run turns .empty) : Owned s := by
  rw [reached]
  exact empty_owned.run fresh

theorem Linked.identity_run {s : MemoryStore} (linked : Linked s) {turns : List Turn}
    {id : EntityId} (stored : Turn.StoredThroughout id turns s) :
    ((Turn.run turns s).executionFor id).map MetricExecution.identity =
      (s.executionFor id).map MetricExecution.identity := by
  induction turns generalizing s with
  | nil => rfl
  | cons turn rest ih =>
      have change := turn.change s
      have before : id ∈ s.metricIds := stored.1
      have stays : id ∈ (turn.next s).metricIds := by
        cases rest with
        | nil => exact stored.2
        | cons next later => exact stored.2.1
      exact (ih (linked.change change) stored.2).trans (linked.identity_kept change before stays)

/-! ### Ownership -/

/-- In whatever order the services are called on an empty store, groups own their metrics and
metrics their executions. Metrics come to be stored with executions that are made for them,
and an execution keeps its identity while its metric is stored. -/
theorem ownership (turns : List Turn) (fresh : Turn.FreshRun turns empty) :
    Owned (Turn.run turns empty) ∧
      (∀ (turn : Turn) (id : EntityId), turn.DrawsFresh (Turn.run turns empty) →
        id ∉ (Turn.run turns empty).metricIds →
        id ∈ (turn.next (Turn.run turns empty)).metricIds →
        ∃ e, (turn.next (Turn.run turns empty)).executionFor id = some e ∧
          e.status = .active ∧ e.lastValue = .zero ∧
          e.id ∉ (Turn.run turns empty).idsInUse ∧ turn.supply.Reads e.createdAt) ∧
      ∀ (later : List Turn) (id : EntityId),
        Turn.StoredThroughout id later (Turn.run turns empty) →
        ∃ e, (Turn.run turns empty).executionFor id = some e ∧
          ∃ kept, (Turn.run (turns ++ later) empty).executionFor id = some kept ∧
            kept.id = e.id ∧ kept.metricId = e.metricId ∧ kept.createdAt = e.createdAt := by
  have owned := empty_owned.run fresh
  refine ⟨owned, ?_, ?_⟩
  · intro turn id drawsFresh absent stored
    obtain ⟨e, found, status, lastValue, drawn, createdAt⟩ :=
      owned.toLinked.executionFor_new (turn.change _) absent stored
    exact ⟨e, found, status, lastValue, drawsFresh.2 e.id drawn, createdAt⟩
  · intro later id stored
    have before : id ∈ (Turn.run turns empty).metricIds := by
      cases later with
      | nil => exact stored
      | cons turn rest => exact stored.1
    obtain ⟨e, found⟩ := owned.toLinked.exists_execution before
    have same := owned.toLinked.identity_run stored
    rw [found, ← Turn.run_append] at same
    obtain ⟨kept, foundAfter, identity⟩ := Option.map_eq_some_iff.mp same
    have ids := congrArg Prod.fst identity
    have others := congrArg Prod.snd identity
    exact ⟨e, found, kept, foundAfter, ids, congrArg Prod.fst others, congrArg Prod.snd others⟩

theorem ownership_of_canary :
    Turn.FreshRun Canary.turns empty ∧ Owned (Turn.run Canary.turns empty) ∧
      (∃ e, (Canary.addsLater.next (Turn.run Canary.turns empty)).executionFor (.ofNat 7) = some e ∧
        e.status = .active ∧ e.lastValue = .zero ∧
        e.id ∉ (Turn.run Canary.turns empty).idsInUse ∧ Canary.addsLater.supply.Reads e.createdAt) ∧
      ∃ e, (Turn.run Canary.turns empty).executionFor (.ofNat 3) = some e ∧
        ∃ kept, (Turn.run (Canary.turns ++ [Canary.meetsLater]) empty).executionFor (.ofNat 3) =
            some kept ∧
          kept.id = e.id ∧ kept.metricId = e.metricId ∧ kept.createdAt = e.createdAt := by
  have fresh : Turn.FreshRun Canary.turns empty := by decide +kernel
  obtain ⟨owned, anew, identity⟩ := ownership Canary.turns fresh
  refine ⟨fresh, owned, anew Canary.addsLater (.ofNat 7) ?_ ?_ ?_,
    identity [Canary.meetsLater] (.ofNat 3) ?_⟩
  · decide +kernel
  · decide +kernel
  · decide +kernel
  · decide +kernel

end MemoryStore

end RolloutWatch

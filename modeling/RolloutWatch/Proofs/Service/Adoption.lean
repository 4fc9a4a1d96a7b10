import RolloutWatch.Proofs.Service.Call

/-!
What a group is like when it is stored. Its metrics carry fresh identifiers and belong to the
group, and their executions are fresh and start anew, whatever the document said of them. The
identifiers that are drawn on the way are first those of the metrics and then those of the
executions.
-/

namespace RolloutWatch

namespace Supply

theorem nextIds_succ (supply : Supply) (count : Nat) :
    supply.nextIds (count + 1) =
      supply.ids supply.idsTaken ::
        { supply with idsTaken := supply.idsTaken + 1 }.nextIds count := by
  simp only [nextIds, List.range'_succ, List.map_cons]

theorem nextIds_add (supply : Supply) (first second : Nat) :
    supply.nextIds (first + second) =
      supply.nextIds first ++
        { supply with idsTaken := supply.idsTaken + first }.nextIds second := by
  simp only [nextIds, ← List.map_append, List.range'_append_1]

theorem nextIds_congr {supply other : Supply} (ids : other.ids = supply.ids)
    (taken : other.idsTaken = supply.idsTaken) (count : Nat) :
    other.nextIds count = supply.nextIds count := by
  simp only [nextIds, ids, taken]

/-- The clock may still be read at this instant. -/
def Reads (supply : Supply) (t : Instant) : Prop :=
  ∃ reading, supply.readingsTaken ≤ reading ∧ t = supply.clock reading

end Supply

/-- A metric of a group with an execution that is made now and has no reading yet. -/
structure Metric.StartsAnew (m : Metric) (groupId : EntityId) (supply : Supply) : Prop where
  group : m.metricsGroupId = groupId
  names : m.execution.metricId = m.id
  status : m.execution.status = .active
  lastValue : m.execution.lastValue = .zero
  createdAt : supply.Reads m.execution.createdAt

theorem Metric.StartsAnew.earlier {m : Metric} {groupId : EntityId} {supply later : Supply}
    (anew : m.StartsAnew groupId later) (clock : later.clock = supply.clock)
    (taken : supply.readingsTaken ≤ later.readingsTaken) : m.StartsAnew groupId supply := by
  obtain ⟨reading, after, same⟩ := anew.createdAt
  refine { anew with createdAt := ⟨reading, Nat.le_trans taken after, ?_⟩ }
  rw [same, clock]

namespace Groups

theorem renew_supply (ms : List Metric) (supply : Supply) :
    (renew ms supply).2 = { supply with idsTaken := supply.idsTaken + ms.length } := by
  induction ms generalizing supply with
  | nil => rfl
  | cons m rest ih =>
      unfold renew
      simp only [Supply.freshId, ih, List.length_cons]
      congr 1
      omega

theorem renew_ids (ms : List Metric) (supply : Supply) :
    (renew ms supply).1.map Metric.id = supply.nextIds ms.length := by
  induction ms generalizing supply with
  | nil => rfl
  | cons m rest ih =>
      unfold renew
      simp only [Supply.freshId, List.map_cons, ih, List.length_cons, Supply.nextIds_succ]

theorem renew_length (ms : List Metric) (supply : Supply) :
    (renew ms supply).1.length = ms.length := by
  have lengths := congrArg List.length (renew_ids ms supply)
  simpa only [Supply.nextIds, List.length_map, List.length_range'] using lengths

end Groups

namespace MetricsGroup

theorem adoptMetric_startsAnew (groupId circleId : EntityId) (m : Metric) (supply : Supply) :
    (adoptMetric groupId circleId m supply).1.StartsAnew groupId supply :=
  { group := rfl
    names := rfl
    status := rfl
    lastValue := rfl
    createdAt := ⟨supply.readingsTaken, Nat.le_refl _, rfl⟩ }

theorem adoptMetric_id (groupId circleId : EntityId) (m : Metric) (supply : Supply) :
    (adoptMetric groupId circleId m supply).1.id = m.id :=
  rfl

theorem adoptMetric_draws (groupId circleId : EntityId) (m : Metric) (supply : Supply) :
    supply.idsUpTo (adoptMetric groupId circleId m supply).2 =
      [(adoptMetric groupId circleId m supply).1.execution.id] := by
  have taken : (adoptMetric groupId circleId m supply).2.idsTaken - supply.idsTaken = 1 :=
    Nat.add_sub_cancel_left supply.idsTaken 1
  unfold Supply.idsUpTo
  rw [taken]
  rfl

theorem adoptAll_supply (groupId circleId : EntityId) (ms : List Metric) (supply : Supply) :
    (adoptAll groupId circleId ms supply).2 =
      { supply with
        idsTaken := supply.idsTaken + ms.length
        readingsTaken := supply.readingsTaken + ms.length } := by
  induction ms generalizing supply with
  | nil => rfl
  | cons m rest ih =>
      unfold adoptAll adoptMetric MetricExecution.fresh
      simp only [Supply.freshId, Supply.now, ih, List.length_cons]
      congr 1 <;> omega

theorem adoptAll_ids (groupId circleId : EntityId) (ms : List Metric) (supply : Supply) :
    (adoptAll groupId circleId ms supply).1.map Metric.id = ms.map Metric.id := by
  induction ms generalizing supply with
  | nil => rfl
  | cons m rest ih =>
      unfold adoptAll
      simp only [List.map_cons, ih, adoptMetric_id]

theorem adoptAll_executionIds (groupId circleId : EntityId) (ms : List Metric)
    (supply : Supply) :
    (adoptAll groupId circleId ms supply).1.map (fun m => m.execution.id) =
      supply.nextIds ms.length := by
  induction ms generalizing supply with
  | nil => rfl
  | cons m rest ih =>
      unfold adoptAll adoptMetric MetricExecution.fresh
      simp only [Supply.freshId, Supply.now, List.map_cons, ih, List.length_cons,
        Supply.nextIds_succ]
      rw [Supply.nextIds_congr]
      · rfl
      · rfl

theorem adoptAll_startsAnew (groupId circleId : EntityId) (ms : List Metric)
    (supply : Supply) (m : Metric) (member : m ∈ (adoptAll groupId circleId ms supply).1) :
    m.StartsAnew groupId supply := by
  induction ms generalizing supply with
  | nil => cases member
  | cons first rest ih =>
      unfold adoptAll at member
      rcases List.mem_cons.mp member with here | later
      · rw [here]
        exact adoptMetric_startsAnew groupId circleId first supply
      · exact (ih _ later).earlier rfl (Nat.le_succ _)

end MetricsGroup

namespace Groups

theorem prepare_startsAnew (g : MetricsGroup) (supply : Supply) (m : Metric)
    (member : m ∈ (prepare g supply).1.metrics) : m.StartsAnew g.id supply := by
  have anew := MetricsGroup.adoptAll_startsAnew g.id g.circleId _ _ m member
  rw [renew_supply] at anew
  exact anew.earlier rfl (Nat.le_refl _)

theorem prepare_draws (g : MetricsGroup) (supply : Supply) :
    supply.idsUpTo (prepare g supply).2 =
      (prepare g supply).1.metrics.map Metric.id ++
        (prepare g supply).1.metrics.map (fun m => m.execution.id) := by
  have metricIds : (prepare g supply).1.metrics.map Metric.id =
      supply.nextIds g.metrics.length :=
    (MetricsGroup.adoptAll_ids _ _ _ _).trans (renew_ids _ _)
  have executionIds : (prepare g supply).1.metrics.map (fun m => m.execution.id) =
      { supply with idsTaken := supply.idsTaken + g.metrics.length }.nextIds
        g.metrics.length := by
    refine (MetricsGroup.adoptAll_executionIds _ _ _ _).trans ?_
    rw [renew_length, renew_supply]
  have taken : (prepare g supply).2.idsTaken - supply.idsTaken =
      g.metrics.length + g.metrics.length := by
    have left : (prepare g supply).2.idsTaken =
        supply.idsTaken + g.metrics.length + g.metrics.length := by
      change (MetricsGroup.adoptAll _ _ _ _).2.idsTaken = _
      rw [MetricsGroup.adoptAll_supply, renew_length, renew_supply]
    omega
  unfold Supply.idsUpTo
  rw [taken, Supply.nextIds_add, metricIds, executionIds]

theorem renew_map {β : Type} {view : Metric → β} (renewed : ∀ m id, view { m with id } = view m)
    (ms : List Metric) (supply : Supply) : (renew ms supply).1.map view = ms.map view := by
  induction ms generalizing supply with
  | nil => rfl
  | cons m rest ih =>
      unfold renew
      simp only [List.map_cons, ih, renewed]

/-- What neither a new identifier nor an adoption touches is stored as it was submitted. -/
theorem prepare_map {β : Type} (view : Metric → β) (g : MetricsGroup) (supply : Supply)
    (renewed : ∀ m id, view { m with id } = view m)
    (adopted : ∀ m later, view (MetricsGroup.adoptMetric g.id g.circleId m later).1 = view m) :
    (prepare g supply).1.metrics.map view = g.metrics.map view := by
  have second (ms : List Metric) (supply : Supply) :
      (MetricsGroup.adoptAll g.id g.circleId ms supply).1.map view = ms.map view := by
    induction ms generalizing supply with
    | nil => rfl
    | cons m rest ih =>
        unfold MetricsGroup.adoptAll
        simp only [List.map_cons, ih, adopted]
  exact (second _ _).trans (renew_map renewed _ _)

theorem prepare_nonempty {g : MetricsGroup} (nonempty : g.metrics ≠ []) {supply : Supply} :
    (prepare g supply).1.metrics ≠ [] := by
  have views := prepare_map Metric.nickname g supply (fun _ _ => rfl) fun _ _ => rfl
  intro none
  rw [none] at views
  exact nonempty (List.map_eq_nil_iff.mp views.symm)

/-- Neither a new identifier nor an adoption makes a metric invalid. -/
theorem prepare_valid {g : MetricsGroup}
    (valid : ∀ m ∈ g.metrics, m.violations.isEmpty = true) {supply : Supply} {m : Metric}
    (member : m ∈ (prepare g supply).1.metrics) : m.violations.isEmpty = true := by
  have views := prepare_map Metric.violations g supply (fun _ _ => rfl) fun _ _ => rfl
  have known : m.violations ∈ g.metrics.map Metric.violations :=
    views ▸ List.mem_map_of_mem member
  obtain ⟨submitted, present, same⟩ := List.mem_map.mp known
  rw [← same]
  exact valid submitted present

end Groups

end RolloutWatch

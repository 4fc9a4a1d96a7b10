import RolloutWatch.Proofs.Relational.Entries
import RolloutWatch.Proofs.Store.SourceReads

/-!
The typed updates of the relational store. The columns that they write are read back at once, and
whatever else the readers of rows make of the other columns, they make of them again.
-/

namespace RolloutWatch

namespace Contents

open Database

/-! ### Entries by column -/

theorem readSource_eq (source : DataSource) :
    readSource source = (do
      let createdAt ← Column.instant (Column.instantText source.createdAt)
      let deletedAt ← SourceRow.deletion (source.deletedAt.map Column.instantText)
      pure { source with createdAt, deletedAt }) := by
  unfold readSource SourceRow.toSource SourceRow.ofSource
  simp only [Column.id_idText, Column.health_name]
  generalize Column.instant _ = createdAt, SourceRow.deletion _ = deletedAt
  rfl

theorem readBare_eq (g : MetricsGroup) :
    readBare g =
      (Column.instant (Column.instantText g.createdAt)).map fun createdAt =>
        { g with metrics := [], createdAt } := by
  unfold readBare GroupRow.toGroup GroupRow.ofGroup
  simp only [Column.id_idText]
  cases Column.instant (Column.instantText g.createdAt) <;> rfl

theorem readExecution_eq (m : Metric) :
    readExecution m =
      (Column.instant (Column.instantText m.execution.createdAt)).map fun createdAt =>
        { m.execution.settled with metricId := m.id, createdAt } := by
  unfold readExecution executionRowFor ExecutionRow.toExecution ExecutionRow.ofExecution
  simp only [Column.id_idText, Column.number_numberText, Column.status_name]
  cases Column.instant (Column.instantText m.execution.createdAt) <;> rfl

theorem readMetric_eq (m : Metric) :
    readMetric m = (do
      let execution ← readExecution m
      let createdAt ← Column.instant (Column.instantText m.createdAt)
      pure { m with threshold := m.threshold.settled, execution, createdAt }) := by
  have deep : 1 < Json.levelLimit - 1 := by decide
  have filters : Column.list MetricFilter.decoder "filters"
      (Column.listText (m.filters.map MetricFilter.toJson)) = .ok m.filters :=
    Column.list_listText MetricFilter.toJson_legible (MetricFilter.decoder_reads deep) _ _
  have groupBy : Column.list Json.Decoder.text "group_by"
      (Column.listText (m.groupBy.map Json.Value.text)) = .ok m.groupBy :=
    Column.list_listText Json.Decoder.text_legible (Json.Decoder.text_reads _) _ _
  unfold readMetric MetricRow.toMetric
  have row : { executionRowFor m with metricId := (MetricRow.ofMetric m).id } =
      executionRowFor m := rfl
  have execution : (executionRowFor m).toExecution = readExecution m := rfl
  rw [row, execution]
  unfold MetricRow.ofMetric
  simp only [Column.id_idText, Column.number_numberText, Column.condition_conditionText,
    filters, groupBy]
  generalize readExecution m = execution, Column.instant _ = createdAt
  rfl

theorem readBare_ok {g read : MetricsGroup} (parsed : readBare g = .ok read) : read.id = g.id := by
  rw [readBare_eq] at parsed
  cases moment : Column.instant (Column.instantText g.createdAt) with
  | error fault =>
      rw [moment] at parsed
      cases parsed
  | ok createdAt =>
      rw [moment] at parsed
      cases parsed
      rfl

theorem readExecution_ok {m : Metric} {e : MetricExecution} (read : readExecution m = .ok e) :
    e.id = m.execution.id ∧ e.metricId = m.id := by
  rw [readExecution_eq] at read
  cases moment : Column.instant (Column.instantText m.execution.createdAt) with
  | error fault =>
      rw [moment] at read
      cases read
  | ok createdAt =>
      rw [moment] at read
      cases read
      exact ⟨rfl, rfl⟩

theorem readMetric_ok {m read : Metric} (parsed : readMetric m = .ok read) :
    read.id = m.id ∧ readExecution m = .ok read.execution := by
  rw [readMetric_eq] at parsed
  obtain ⟨execution, readExecution, rest⟩ := Parsed.bind_ok parsed
  obtain ⟨createdAt, -, final⟩ := Parsed.bind_ok rest
  cases final
  exact ⟨rfl, readExecution⟩

theorem readSource_ok {source read : DataSource} (parsed : readSource source = .ok read) :
    read.id = source.id ∧ read.health = source.health := by
  rw [readSource_eq] at parsed
  obtain ⟨createdAt, -, rest⟩ := Parsed.bind_ok parsed
  obtain ⟨deletedAt, -, final⟩ := Parsed.bind_ok rest
  cases final
  exact ⟨rfl, rfl⟩

/-! ### Entries that have been written -/

theorem readBare_renamed (g : MetricsGroup) (u : MetricsGroupUpdate) :
    readBare { g with name := u.name, circleId := u.circleId } =
      (readBare g).map fun read => { read with name := u.name, circleId := u.circleId } := by
  rw [readBare_eq, readBare_eq]
  change (Column.instant (Column.instantText g.createdAt)).map _ = _
  cases Column.instant (Column.instantText g.createdAt) <;> rfl

theorem readMetric_redefined (definition m : Metric) :
    readMetric (m.withDefinitionOf definition) =
      (readMetric m).map fun read =>
        read.withDefinitionOf { definition with threshold := definition.threshold.settled } := by
  rw [readMetric_eq, readMetric_eq, Parsed.map_bind]
  simp only [Parsed.map_bind]
  rfl

theorem readExecution_changed (state : MetricExecution) (m : Metric) :
    readExecution (changeExecution state m) =
      (readExecution m).map fun e =>
        e.withStateOf { state with lastValue := state.lastValue.settled } := by
  rw [readExecution_eq, readExecution_eq]
  change (Column.instant (Column.instantText m.execution.createdAt)).map _ = _
  cases Column.instant (Column.instantText m.execution.createdAt) <;> rfl

theorem readMetric_changed (state : MetricExecution) (m : Metric) :
    readMetric (changeExecution state m) =
      (readMetric m).map fun read =>
        { read with
          execution :=
            read.execution.withStateOf { state with lastValue := state.lastValue.settled } } := by
  rw [readMetric_eq, readMetric_eq, readExecution_changed, Parsed.bind_map, Parsed.map_bind]
  simp only [Parsed.map_bind]
  rfl

/-! ### Contents that have been written -/

/-- Groups and metrics have been rewritten, so that they are read through views. Their places in
searches and in lists are the same. -/
structure Rewritten (ofGroup : MetricsGroup → MetricsGroup) (ofMetric : Metric → Metric)
    (onGroup : MetricsGroup → MetricsGroup) (onMetric : Metric → Metric)
    (onExecution : MetricExecution → MetricExecution) (c later : Contents) : Prop where
  groups : later.groups = c.groups.map ofGroup
  metrics : later.metrics = c.metrics.map ofMetric
  groupPlace : ∀ g, (ofGroup g).id = g.id ∧ (ofGroup g).createdAt = g.createdAt
  metricPlace : ∀ m, (ofMetric m).id = m.id ∧ (ofMetric m).metricsGroupId = m.metricsGroupId ∧
    (ofMetric m).createdAt = m.createdAt ∧
      (ofMetric m).execution.createdAt = m.execution.createdAt
  readBare : ∀ g ∈ c.groups, Contents.readBare (ofGroup g) = (Contents.readBare g).map onGroup
  readMetric : ∀ m ∈ c.metrics, Contents.readMetric (ofMetric m) =
    (Contents.readMetric m).map onMetric
  readExecution : ∀ m ∈ c.metrics, Contents.readExecution (ofMetric m) =
    (Contents.readExecution m).map onExecution
  viewedPlace : ∀ g, (onGroup g).id = g.id
  viewedFields : ∀ g metrics viewed, { onGroup { g with metrics } with metrics := viewed } =
    { onGroup g with metrics := viewed }

section

variable {ofGroup onGroup : MetricsGroup → MetricsGroup} {ofMetric onMetric : Metric → Metric}
  {onExecution : MetricExecution → MetricExecution} {c later : Contents}

theorem mergeSort_rewritten {α : Type} {rewrite : α → α} {time : α → Instant}
    (same : ∀ a, time (rewrite a) = time a) (items : List α) :
    (items.map rewrite).mergeSort (textNotLater time) =
      (items.mergeSort (textNotLater time)).map rewrite := by
  symm
  apply List.map_mergeSort
  intro a _ b _
  unfold textNotLater
  rw [same, same]

theorem Rewritten.metricsOf
    (rewritten : Rewritten ofGroup ofMetric onGroup onMetric onExecution c later)
    (groupId : EntityId) :
    later.metricsOf groupId = (c.metricsOf groupId).map (List.map onMetric) := by
  have chosen : (fun m : Metric => decide (m.metricsGroupId = groupId)) ∘ ofMetric =
      fun m => decide (m.metricsGroupId = groupId) :=
    funext fun m => congrArg (fun owner => decide (owner = groupId)) (rewritten.metricPlace m).2.1
  unfold Contents.metricsOf
  rw [rewritten.metrics, List.filter_map, chosen,
    mergeSort_rewritten fun m => (rewritten.metricPlace m).2.2.1, List.mapM_map]
  apply Parsed.mapM_through
  intro m member
  exact rewritten.readMetric m (List.mem_of_mem_filter ((List.mergeSort_perm _ _).subset member))

theorem Rewritten.readGroups
    (rewritten : Rewritten ofGroup ofMetric onGroup onMetric onExecution c later)
    {gs : List MetricsGroup} (stored : ∀ g ∈ gs, g ∈ c.groups) :
    later.readGroups (gs.map ofGroup) =
      (c.readGroups gs).map (List.map (MetricsGroup.viewedBy onGroup onMetric)) := by
  have bare := Parsed.mapM_through fun g member => rewritten.readBare g (stored g member)
  unfold Contents.readGroups
  rw [List.mapM_map]
  change gs.mapM (fun g => Contents.readBare (ofGroup g)) >>= _ = _
  rw [bare, Parsed.bind_map, Parsed.map_bind]
  congr 1
  funext groups
  rw [List.mapM_map]
  apply Parsed.mapM_through
  intro g _
  have metrics : later.metricsOf (onGroup g).id = (c.metricsOf g.id).map (List.map onMetric) := by
    rw [rewritten.viewedPlace, rewritten.metricsOf]
  rw [Function.comp_apply, metrics, Parsed.bind_map, Parsed.map_bind]
  congr 1
  funext metrics
  exact congrArg Except.ok (rewritten.viewedFields g metrics _).symm

theorem Rewritten.filter_groups
    (rewritten : Rewritten ofGroup ofMetric onGroup onMetric onExecution c later) (id : EntityId) :
    later.groups.filter (fun g => g.id = id) =
      (c.groups.filter fun g => g.id = id).map ofGroup := by
  have search : (fun g : MetricsGroup => decide (g.id = id)) ∘ ofGroup =
      fun g => decide (g.id = id) :=
    funext fun g => congrArg (fun other => decide (other = id)) (rewritten.groupPlace g).1
  rw [rewritten.groups, List.filter_map, search]

theorem Rewritten.find_metric
    (rewritten : Rewritten ofGroup ofMetric onGroup onMetric onExecution c later) (id : EntityId) :
    later.metrics.find? (fun m => m.id = id) =
      (c.metrics.find? fun m => m.id = id).map ofMetric := by
  have search : (fun m : Metric => decide (m.id = id)) ∘ ofMetric = fun m => decide (m.id = id) :=
    funext fun m => congrArg (fun other => decide (other = id)) (rewritten.metricPlace m).1
  rw [rewritten.metrics, List.find?_map, search]

end

end Contents

namespace RelationalStore

open Database Contents

variable {s after : RelationalStore} {c later : Contents} {found : Bool}

/-- The reads show what has been rewritten through the views. -/
theorem Keeps.tracked {ofGroup onGroup : MetricsGroup → MetricsGroup}
    {ofMetric onMetric : Metric → Metric} {onExecution : MetricExecution → MetricExecution}
    (keeps : Keeps s c) (keepsLater : Keeps after later) (closed : after.closed = s.closed)
    (rewritten : Rewritten ofGroup ofMetric onGroup onMetric onExecution c later) :
    Store.TrackedThrough (MetricsGroup.viewedBy onGroup onMetric) onMetric onExecution
      (List.map onExecution) s after where
  group id := by
    refine (keepsLater.findMetricsGroup id).trans ?_
    refine Eq.trans ?_ (congrArg (Except.map _) (keeps.findMetricsGroup id)).symm
    apply whenOpen_through closed
    rw [rewritten.filter_groups, rewritten.readGroups fun g member => List.mem_of_mem_filter member,
      parsed_map]
    cases parsed (c.readGroups (c.groups.filter fun g => g.id = id)) with
    | error fault => rfl
    | ok gs => exact congrArg Except.ok List.head?_map
  groups := by
    refine (keepsLater.listMetricsGroups).trans ?_
    refine Eq.trans ?_ (congrArg (Except.map _) keeps.listMetricsGroups).symm
    apply whenOpen_through closed
    rw [rewritten.groups, mergeSort_rewritten fun g => (rewritten.groupPlace g).2,
      rewritten.readGroups fun g member => (List.mergeSort_perm _ _).subset member, parsed_map]
  metric id := by
    refine (keepsLater.findMetric id).trans ?_
    refine Eq.trans ?_ (congrArg (Except.map _) (keeps.findMetric id)).symm
    apply whenOpen_through closed
    rw [rewritten.find_metric, readFound_map]
    exact readFound_through fun m first => rewritten.readMetric m (List.mem_of_find?_eq_some first)
  execution id := by
    refine (keepsLater.findMetricExecution id).trans ?_
    refine Eq.trans ?_ (congrArg (Except.map _) (keeps.findMetricExecution id)).symm
    apply whenOpen_through closed
    rw [rewritten.find_metric, readFound_map]
    exact readFound_through fun m first =>
      rewritten.readExecution m (List.mem_of_find?_eq_some first)
  executions := by
    refine (keepsLater.listMetricExecutions).trans ?_
    refine Eq.trans ?_ (congrArg (Except.map _) keeps.listMetricExecutions).symm
    apply whenOpen_through closed
    rw [rewritten.metrics, mergeSort_rewritten fun m => (rewritten.metricPlace m).2.2.2,
      List.mapM_map, ← parsed_map]
    refine congrArg parsed (Parsed.mapM_through fun m member => ?_)
    exact rewritten.readExecution m ((List.mergeSort_perm _ _).subset member)

/-! ### Writes -/

theorem readGroups_eq_nil {gs : List MetricsGroup} (read : c.readGroups gs = .ok []) : gs = [] := by
  obtain ⟨bare, readBare, rest⟩ := Parsed.bind_ok read
  have noBare : bare = [] := by
    cases Parsed.mapM_ok rest
    rfl
  subst noBare
  cases Parsed.mapM_ok readBare
  rfl

theorem rewritten_group (c : Contents) (groupId : EntityId) (u : MetricsGroupUpdate) :
    Rewritten (MetricsGroup.updatedBy groupId u) id (MetricsGroup.updatedBy groupId u) id id c
      (c.after (.updateMetricsGroup groupId u)) where
  groups := by
    unfold Contents.after changeWhere
    simp only [decide_eq_true_eq]
    rfl
  metrics := (List.map_id _).symm
  groupPlace g :=
    ⟨MetricsGroup.updatedBy_kept MetricsGroup.id (fun _ _ _ => rfl) g,
      MetricsGroup.updatedBy_kept MetricsGroup.createdAt (fun _ _ _ => rfl) g⟩
  metricPlace _ := ⟨rfl, rfl, rfl, rfl⟩
  readBare g _ := Parsed.read_ite (readBare_renamed g u) fun read parsed => by
    rw [readBare_ok parsed]
  readMetric _ _ := (Parsed.map_eq_self fun _ _ => rfl).symm
  readExecution _ _ := (Parsed.map_eq_self fun _ _ => rfl).symm
  viewedPlace := MetricsGroup.updatedBy_kept MetricsGroup.id fun _ _ _ => rfl
  viewedFields := MetricsGroup.updatedBy_withMetrics

theorem Keeps.findMetricsGroup_ne_none (keeps : Keeps s c) (opened : s.closed = false)
    {g : MetricsGroup} (stored : g ∈ c.groups) :
    RelationalStore.findMetricsGroup g.id s ≠ .ok none := by
  intro missing
  rw [keeps.findMetricsGroup, whenOpen_of_open _ opened] at missing
  cases read : c.readGroups (c.groups.filter fun other => other.id = g.id) with
  | error fault =>
      rw [read] at missing
      cases missing
  | ok gs =>
      rw [read] at missing
      have chosen : g ∈ c.groups.filter fun other => other.id = g.id :=
        List.mem_filter.mpr ⟨stored, decide_eq_true rfl⟩
      rw [List.head?_eq_none_iff.mp (Except.ok.inj missing)] at read
      rw [readGroups_eq_nil read] at chosen
      cases chosen

theorem Keeps.groupUpdated (keeps : Keeps s c) {groupId : EntityId} {u : MetricsGroupUpdate}
    (written : RelationalStore.updateMetricsGroup groupId u s = .ok (found, after)) :
    if found then Store.GroupUpdated groupId u s after else after = s := by
  have keepsLater := keeps.updateMetricsGroup written
  have opened := (whenOpen_ok written).1
  obtain ⟨rfl, hit⟩ := writeWhere_ok written
  cases found with
  | true =>
      rw [Store.updateFirst_found, keeps.tables] at hit
      change true = (c.groups.map GroupRow.ofGroup).any _ at hit
      rw [List.any_map, MemoryStore.groupId_ofGroup] at hit
      obtain ⟨g, stored, named⟩ := List.any_eq_true.mp hit.symm
      have tracked := keeps.tracked keepsLater rfl (rewritten_group c groupId u)
      rw [Store.viewedBy_updatedBy, List.map_id_fun] at tracked
      refine { addressed := ?_, sources := ⟨fun _ => rfl, fun _ _ => rfl⟩, tracked }
      rw [← of_decide_eq_true named]
      exact keeps.findMetricsGroup_ne_none opened stored
  | false =>
      have kept := Store.updateFirst_of_not_found _ _ _ hit.symm
      exact congrArg (fun groups => { s with database := { s.database with groups } }) kept

theorem rewritten_metric (c : Contents) (definition : Metric) :
    Rewritten id (Metric.updatedBy definition) id
      (Metric.updatedBy { definition with threshold := definition.threshold.settled }) id c
      (c.after (.updateMetric definition)) where
  groups := (List.map_id _).symm
  metrics := by
    unfold Contents.after changeWhere
    simp only [decide_eq_true_eq]
    rfl
  groupPlace _ := ⟨rfl, rfl⟩
  metricPlace m :=
    ⟨Metric.updatedBy_kept Metric.id (fun _ => rfl) m,
      Metric.updatedBy_kept Metric.metricsGroupId (fun _ => rfl) m,
      Metric.updatedBy_kept Metric.createdAt (fun _ => rfl) m,
      Metric.updatedBy_kept (fun m => m.execution.createdAt) (fun _ => rfl) m⟩
  readBare _ _ := (Parsed.map_eq_self fun _ _ => rfl).symm
  readMetric m _ := Parsed.read_ite (readMetric_redefined definition m) fun read parsed => by
    rw [(readMetric_ok parsed).1]
  readExecution m _ := by
    have same : executionRowFor (Metric.updatedBy definition m) = executionRowFor m :=
      Metric.updatedBy_kept executionRowFor (fun _ => rfl) m
    unfold Contents.readExecution
    rw [same]
    exact (Parsed.map_eq_self fun _ _ => rfl).symm
  viewedPlace _ := rfl
  viewedFields _ _ _ := rfl

theorem Keeps.metricUpdated (keeps : Keeps s c) {m : Metric}
    (written : RelationalStore.updateMetric m s = .ok (found, after)) :
    if found then Store.MetricUpdated { m with threshold := m.threshold.settled } s after
    else after = s := by
  have keepsLater := keeps.updateMetric written
  have opened := (whenOpen_ok written).1
  obtain ⟨rfl, hit⟩ := writeWhere_ok written
  cases found with
  | true =>
      rw [Store.updateFirst_found, keeps.tables] at hit
      change true = (c.metrics.map MetricRow.ofMetric).any _ at hit
      rw [List.any_map, MemoryStore.metricId_ofMetric] at hit
      obtain ⟨row, first⟩ :=
        Option.isSome_iff_exists.mp (List.find?_isSome.mpr (List.any_eq_true.mp hit.symm))
      have tracked := keeps.tracked keepsLater rfl (rewritten_metric c m)
      rw [List.map_id_fun] at tracked
      refine { addressed := ?_, sources := ⟨fun _ => rfl, fun _ _ => rfl⟩, tracked }
      intro missing
      change RelationalStore.findMetric m.id s = _ at missing
      rw [keeps.findMetric, whenOpen_of_open _ opened, first] at missing
      exact readFound_some_ne readMetric row missing
  | false =>
      have kept := Store.updateFirst_of_not_found _ _ _ hit.symm
      exact congrArg (fun metrics => { s with database := { s.database with metrics } }) kept

theorem owner_of_state (keyed : c.Keyed) {state : MetricExecution} {target : Metric}
    (first : c.metrics.find? (fun m => m.execution.id = state.id) = some target) {m : Metric}
    (stored : m ∈ c.metrics) : m.execution.id = state.id ↔
      m.id = target.id ∧ m.execution.id = state.id := by
  obtain ⟨present, named⟩ := Store.find_some_key (fun m : Metric => m.execution.id) first
  constructor
  · intro same
    have equal := List.inj_on_of_nodup_map keyed.executions stored present (same.trans named.symm)
    exact ⟨congrArg Metric.id equal, same⟩
  · exact And.right

theorem rewritten_execution (keyed : c.Keyed) {state : MetricExecution} {target : Metric}
    (first : c.metrics.find? (fun m => m.execution.id = state.id) = some target) :
    Rewritten id (fun m => if m.execution.id = state.id then changeExecution state m else m) id
      (Metric.withStateOf target.id { state with lastValue := state.lastValue.settled })
      (MetricExecution.withStateFor target.id { state with lastValue := state.lastValue.settled })
      c (c.after (.updateMetricExecution state)) where
  groups := (List.map_id _).symm
  metrics := by
    unfold Contents.after changeWhere
    simp only [decide_eq_true_eq]
  groupPlace _ := ⟨rfl, rfl⟩
  metricPlace m := by
    split <;> exact ⟨rfl, rfl, rfl, rfl⟩
  readBare _ _ := (Parsed.map_eq_self fun _ _ => rfl).symm
  readMetric m stored := Parsed.read_ite (readMetric_changed state m) fun read parsed => by
    obtain ⟨named, readExecution⟩ := readMetric_ok parsed
    rw [named, (readExecution_ok readExecution).1]
    exact (owner_of_state keyed first stored).symm
  readExecution m stored := Parsed.read_ite (readExecution_changed state m) fun e parsed => by
    obtain ⟨named, owner⟩ := readExecution_ok parsed
    rw [named, owner]
    exact (owner_of_state keyed first stored).symm
  viewedPlace _ := rfl
  viewedFields _ _ _ := rfl

theorem Keeps.listed_identities (keeps : Keeps s c) {listed : List MetricExecution}
    (answered : RelationalStore.listMetricExecutions s = .ok listed) :
    (listed.map MetricExecution.id).Nodup ∧
      (listed.map fun e => (e.id, e.metricId)).Perm
        (c.metrics.map fun m => (m.execution.id, m.id)) := by
  rw [keeps.listMetricExecutions] at answered
  have read := parsed_ok.mp (whenOpen_ok answered).2
  have same : (listed.map fun e => (e.id, e.metricId)) =
      (c.metrics.mergeSort (textNotLater fun m => m.execution.createdAt)).map
        fun m => (m.execution.id, m.id) :=
    Parsed.mapM_view read fun m e parsed =>
      Prod.ext (readExecution_ok parsed).1 (readExecution_ok parsed).2
  have identities : (listed.map fun e => (e.id, e.metricId)).Perm
      (c.metrics.map fun m => (m.execution.id, m.id)) := by
    rw [same]
    exact (List.mergeSort_perm _ _).map _
  refine ⟨?_, identities⟩
  have ids := identities.map Prod.fst
  rw [List.map_map, List.map_map] at ids
  exact ids.nodup_iff.mpr keeps.keyed.executions

/-- The listed execution that has an identifier is of the metric that is stored with it. -/
theorem Keeps.owner_of_listed (keeps : Keeps s c) {listed : List MetricExecution}
    (answered : RelationalStore.listMetricExecutions s = .ok listed) {state : MetricExecution}
    {target : Metric}
    (first : c.metrics.find? (fun m => m.execution.id = state.id) = some target)
    {e : MetricExecution} (member : e ∈ listed) (same : e.id = state.id) :
    e.metricId = target.id := by
  have identity : (e.id, e.metricId) ∈ listed.map fun e => (e.id, e.metricId) :=
    List.mem_map_of_mem member
  obtain ⟨m, stored, equal⟩ :=
    List.mem_map.mp ((keeps.listed_identities answered).2.subset identity)
  have ids : m.execution.id = e.id := congrArg Prod.fst equal
  have owners : m.id = e.metricId := congrArg Prod.snd equal
  rw [← owners]
  exact ((owner_of_state keeps.keyed first stored).mp (ids.trans same)).1

theorem Keeps.first_listed (keeps : Keeps s c) {listed : List MetricExecution}
    (answered : RelationalStore.listMetricExecutions s = .ok listed) {state : MetricExecution}
    {target : Metric}
    (first : c.metrics.find? (fun m => m.execution.id = state.id) = some target) :
    (listed.find? fun e => e.id = state.id).map MetricExecution.metricId = some target.id := by
  obtain ⟨present, named⟩ := Store.find_some_key (fun m : Metric => m.execution.id) first
  have known : state.id ∈ listed.map MetricExecution.id := by
    have ids := (keeps.listed_identities answered).2.map Prod.fst
    rw [List.map_map, List.map_map] at ids
    exact ids.mem_iff.mpr (List.mem_map.mpr ⟨target, present, named⟩)
  obtain ⟨e, chosen⟩ := Store.exists_find_of_mem_keys MetricExecution.id state.id listed known
  obtain ⟨member, same⟩ := Store.find_some_key MetricExecution.id chosen
  rw [chosen]
  exact congrArg some (keeps.owner_of_listed answered first member same)

/-- The state of an execution is written to the first one in a list, or to all that are the
owner's. -/
theorem updateFirst_withStateOf {owner : EntityId} (state : MetricExecution)
    {listed : List MetricExecution} (distinct : (listed.map MetricExecution.id).Nodup)
    (owned : ∀ e ∈ listed, e.id = state.id → e.metricId = owner) :
    (Store.updateFirst (fun e => e.id = state.id) (fun e => e.withStateOf state) listed).2 =
      listed.map (MetricExecution.withStateFor owner state) := by
  rw [Store.updateFirst_of_nodup MetricExecution.id state.id _ listed distinct]
  apply List.map_congr_left
  intro e member
  unfold MetricExecution.withStateFor
  by_cases same : e.id = state.id
  · rw [if_pos same, if_pos ⟨owned e member same, same⟩]
  · rw [if_neg same, if_neg fun both => same both.2]

theorem Keeps.executionUpdated (keeps : Keeps s c) {state : MetricExecution}
    (written : RelationalStore.updateMetricExecution state s = .ok (found, after)) :
    if found then
      ∃ owner, Store.ExecutionUpdated { state with lastValue := state.lastValue.settled } owner s
        after
    else after = s := by
  have keepsLater := keeps.updateMetricExecution written
  obtain ⟨rfl, hit⟩ := writeWhere_ok written
  cases found with
  | true =>
      have wanted : (fun r : ExecutionRow => decide (r.id = state.id.text)) ∘ executionRowFor =
          fun m => decide (m.execution.id = state.id) :=
        funext fun m => EntityId.decide_text m.execution.id state.id
      rw [Store.updateFirst_found, keeps.tables] at hit
      change true = (c.metrics.map executionRowFor).any _ at hit
      rw [List.any_map, wanted] at hit
      obtain ⟨target, first⟩ :=
        Option.isSome_iff_exists.mp (List.find?_isSome.mpr (List.any_eq_true.mp hit.symm))
      have tracked := keeps.tracked keepsLater rfl (rewritten_execution keeps.keyed first)
      refine ⟨target.id,
        { addressed := fun listed answered => keeps.first_listed answered first
          sources := ⟨fun _ => rfl, fun _ _ => rfl⟩
          tracked := { tracked with executions := ?_ } }⟩
      rw [tracked.executions]
      cases answered : Store.listMetricExecutions s with
      | error fault => rfl
      | ok listed =>
          have listedLater := updateFirst_withStateOf
            { state with lastValue := state.lastValue.settled }
            (keeps.listed_identities answered).1
            fun e member same => keeps.owner_of_listed answered first member same
          exact congrArg Except.ok listedLater.symm
  | false =>
      have kept := Store.updateFirst_of_not_found _ _ _ hit.symm
      exact congrArg (fun executions => { s with database := { s.database with executions } }) kept

/-! ### Sources -/

theorem readsSources : Store.ReadsSources readSource where
  identified _ _ parsed := readSource_ok parsed
  withHealth source health := by
    rw [readSource_eq, readSource_eq, Parsed.map_bind]
    simp only [Parsed.map_bind]
    rfl

theorem Keeps.servesSources (keeps : Keeps s c) (opened : s.closed = false) :
    Store.ServesSources readSource sourceListedBefore s c.sources where
  find id := (keeps.findDataSource id).trans (whenOpen_of_open _ opened)
  list workspaceId health :=
    (keeps.listDataSources workspaceId health).trans (whenOpen_of_open _ opened)

theorem Keeps.catalogued (keeps : Keeps s c) : Catalogued s c.sources :=
  { stored := congrArg Database.sources keeps.tables, distinct := keeps.keyed.sources }

theorem Keeps.changesSource (keeps : Keeps s c) {id : EntityId} (change : DataSource → DataSource)
    {rewrite : SourceRow → SourceRow}
    (same : rewrite ∘ SourceRow.ofSource = SourceRow.ofSource ∘ change)
    (keepsId : ∀ source, (change source).id = source.id)
    (written : s.changeSource id rewrite = .ok (found, after)) :
    if found then
      Store.ChangesSource readSource sourceListedBefore Catalogued id change s after c.sources
    else after = s := by
  have keepsLater := keeps.changeSource change same keepsId written
  have opened := (whenOpen_ok written).1
  obtain ⟨rfl, hit⟩ := writeWhere_ok written
  cases found with
  | true =>
      rw [Store.updateFirst_found, keeps.tables] at hit
      exact
        { serves := keeps.servesSources opened
          servesLater := keepsLater.servesSources opened
          held := keeps.catalogued
          heldLater := keepsLater.catalogued
          found := (any_liveId id c.sources).symm.trans hit.symm
          tracked := ⟨fun _ => rfl, rfl, fun _ => rfl, fun _ => rfl, rfl⟩ }
  | false =>
      have kept := Store.updateFirst_of_not_found _ _ _ hit.symm
      exact congrArg (fun sources => { s with database := { s.database with sources } }) kept

/-- Whatever operations have led to the store, its typed updates write the named fields only. -/
theorem Operated.writesOnlyNamed {allowed : StoreOperation → Prop}
    (operated : Operated allowed s c) :
    Store.WritesOnlyNamed Binary64.settled Catalogued s where
  group _ _ _ _ written := operated.keeps.groupUpdated written
  metric _ _ _ written := operated.keeps.metricUpdated written
  ignored _ _ _ _ := rfl
  execution _ _ _ written := operated.keeps.executionUpdated written
  health id health found after written := by
    have changed := operated.keeps.changesSource (fun source => { source with health }) rfl
      (fun _ => rfl) written
    cases found with
    | true => exact changed.healthSet readsSources sourceListedBefore_comparesBy fun _ _ => rfl
    | false => exact changed
  deletion id deletedAt found after written := by
    have changed := operated.keeps.changesSource
      (fun source => { source with deletedAt := some deletedAt }) rfl (fun _ => rfl) written
    cases found with
    | true => exact changed.sourceDeleted readsSources sourceListedBefore_comparesBy
    | false => exact changed

end RelationalStore

end RolloutWatch

import RolloutWatch.Proofs.Json.ValueText
import RolloutWatch.Proofs.Relational.Catalogue
import RolloutWatch.Proofs.Relational.Reading
import RolloutWatch.Store.Archive

/-!
What a database gives back of what has been put into it. A row is a list of columns, from which a
reader takes each by its place: the columns of a metric and those of its execution stand side by
side in the rows of their join. Tables come back from their archive, and what is inserted is found
again by its key.
-/

namespace RolloutWatch

/-! ### Columns by their places -/

namespace SourceRow

/-- The columns that are never empty. Behind them stands the time of deletion. -/
def columns (r : SourceRow) : Vector String 7 :=
  #v[r.id, r.name, r.workspaceId, r.pluginSrc, r.sealedData, r.health, r.createdAt]

end SourceRow

namespace ExecutionRow

def columns (r : ExecutionRow) : Vector String 5 :=
  #v[r.id, r.metricId, r.lastValue, r.status, r.createdAt]

end ExecutionRow

namespace MetricRow

/-- The columns that are selected from a join: all of the metric, and of the execution all but the
metric that it belongs to. -/
def joinedColumns (r : MetricRow) (e : ExecutionRow) : Vector String 16 :=
  #v[r.id, r.metricsGroupId, r.dataSourceId, r.nickname, r.query, r.metric, r.filters, r.groupBy,
    r.condition, r.threshold, r.circleId, r.createdAt, e.id, e.lastValue, e.status, e.createdAt]

end MetricRow

def DataSource.ofColumns (row : Vector String 7) (deletion : Option String) :
    Parsed DataSource := do
  let id ← Column.id "id" row[0]
  let workspaceId ← Column.id "workspace_id" row[2]
  let health ← Column.named Health.ofText? "health" row[5]
  let createdAt ← Column.instant row[6]
  let deletedAt ← SourceRow.deletion deletion
  pure
    { id, name := row[1], workspaceId, pluginSrc := row[3], sealedData := row[4], health,
      createdAt, deletedAt }

def MetricExecution.ofColumns (row : Vector String 5) : Parsed MetricExecution := do
  let id ← Column.id "id" row[0]
  let metricId ← Column.id "metric_id" row[1]
  let lastValue ← Column.number "last_value" row[2]
  let status ← Column.named ExecutionStatus.ofText? "status" row[3]
  let createdAt ← Column.instant row[4]
  pure { id, metricId, lastValue, status, createdAt }

def Metric.ofColumns (row : Vector String 16) : Parsed Metric := do
  let id ← Column.id "id" row[0]
  let filters ← Column.list MetricFilter.decoder "filters" row[6]
  let groupBy ← Column.list Json.Decoder.text "group_by" row[7]
  let metricsGroupId ← Column.id "metrics_group_id" row[1]
  let dataSourceId ← Column.id "data_source_id" row[2]
  let condition ← Column.condition row[8]
  let threshold ← Column.number "threshold" row[9]
  let circleId ← Column.id "circle_id" row[10]
  let executionId ← Column.id "id" row[12]
  let lastValue ← Column.number "last_value" row[13]
  let status ← Column.named ExecutionStatus.ofText? "status" row[14]
  let executionCreatedAt ← Column.instant row[15]
  let createdAt ← Column.instant row[11]
  pure
    { id, metricsGroupId, dataSourceId, nickname := row[3], query := row[4], metric := row[5],
      filters, groupBy, condition, threshold, circleId,
      execution :=
        { id := executionId, metricId := id, lastValue, status, createdAt := executionCreatedAt },
      createdAt }

theorem SourceRow.ofColumns_columns (r : SourceRow) :
    DataSource.ofColumns r.columns r.deletedAt = r.toSource :=
  rfl

theorem ExecutionRow.ofColumns_columns (r : ExecutionRow) :
    MetricExecution.ofColumns r.columns = r.toExecution :=
  rfl

theorem Parsed.error_bind {α β : Type} (fault : PersistenceFault) (next : α → Parsed β) :
    (.error fault : Parsed α) >>= next = .error fault :=
  rfl

theorem Parsed.ok_bind {α β : Type} (a : α) (next : α → Parsed β) :
    (.ok a : Parsed α) >>= next = next a :=
  rfl

theorem Column.id_name {name other text : String} {id : EntityId}
    (read : Column.id name text = .ok id) : Column.id other text = .ok id := by
  unfold Column.id at read ⊢
  cases parsed : EntityId.ofString? text with
  | none =>
      rw [parsed] at read
      cases read
  | some found =>
      rw [parsed] at read
      cases read
      rfl

theorem MetricRow.ofColumns_joinedColumns (r : MetricRow) (e : ExecutionRow) :
    Metric.ofColumns (r.joinedColumns e) = r.toMetric e := by
  have places :
      (r.joinedColumns e)[0] = r.id ∧ (r.joinedColumns e)[1] = r.metricsGroupId ∧
        (r.joinedColumns e)[2] = r.dataSourceId ∧ (r.joinedColumns e)[3] = r.nickname ∧
        (r.joinedColumns e)[4] = r.query ∧ (r.joinedColumns e)[5] = r.metric ∧
        (r.joinedColumns e)[6] = r.filters ∧ (r.joinedColumns e)[7] = r.groupBy ∧
        (r.joinedColumns e)[8] = r.condition ∧ (r.joinedColumns e)[9] = r.threshold ∧
        (r.joinedColumns e)[10] = r.circleId ∧ (r.joinedColumns e)[11] = r.createdAt ∧
        (r.joinedColumns e)[12] = e.id ∧ (r.joinedColumns e)[13] = e.lastValue ∧
        (r.joinedColumns e)[14] = e.status ∧ (r.joinedColumns e)[15] = e.createdAt :=
    ⟨rfl, rfl, rfl, rfl, rfl, rfl, rfl, rfl, rfl, rfl, rfl, rfl, rfl, rfl, rfl, rfl⟩
  unfold Metric.ofColumns toMetric ExecutionRow.toExecution
  simp only [places]
  cases read : Column.id "id" r.id with
  | error fault => rw [Parsed.error_bind, Parsed.error_bind]
  | ok id =>
      -- The identifier has been read, so that it can be read as that of the execution's metric.
      have owner : Column.id "metric_id" r.id = .ok id := Column.id_name read
      simp only [Parsed.ok_bind, owner, bind_assoc, pure_bind]

/-! ### Archives -/

namespace Archive

theorem texts_map (texts : List String) : texts? (texts.map Json.Value.text) = some texts := by
  induction texts with
  | nil => rfl
  | cons text rest ih =>
      rw [List.map_cons, texts?, ih]
      rfl

structure Positional {α : Type} (cells : α → Json.Value)
    (row? : List Json.Value → Option α) : Prop where
  reads : ∀ r, ∃ row, cells r = .array row ∧ row? row = some r
  integral : ∀ r, (cells r).Integral
  flat : ∀ r, (cells r).depth = 1

theorem Positional.rows {α : Type} {cells : α → Json.Value} {row? : List Json.Value → Option α}
    (positional : Positional cells row?) (rs : List α) :
    rows? row? (.array (rs.map cells)) = some rs := by
  unfold rows?
  induction rs with
  | nil => rfl
  | cons r rest ih =>
      obtain ⟨row, written, read⟩ := positional.reads r
      simp only [List.map_cons, List.mapM_cons, written, read] at ih ⊢
      rw [ih]
      rfl

theorem integral_texts (texts : List String) :
    Json.Value.IntegralItems (texts.map Json.Value.text) := by
  induction texts with
  | nil => trivial
  | cons text rest ih => exact ⟨trivial, ih⟩

theorem depth_texts (texts : List String) :
    Json.Value.depthItems (texts.map Json.Value.text) = 0 := by
  induction texts with
  | nil => rfl
  | cons text rest ih =>
      rw [List.map_cons, Json.Value.depthItems, ih]
      rfl

theorem Positional.integralItems {α : Type} {cells : α → Json.Value}
    {row? : List Json.Value → Option α} (positional : Positional cells row?) (rs : List α) :
    Json.Value.IntegralItems (rs.map cells) := by
  induction rs with
  | nil => trivial
  | cons r rest ih => exact ⟨positional.integral r, ih⟩

theorem Positional.depthItems_le {α : Type} {cells : α → Json.Value}
    {row? : List Json.Value → Option α} (positional : Positional cells row?) (rs : List α) :
    Json.Value.depthItems (rs.map cells) ≤ 1 := by
  induction rs with
  | nil => exact Nat.zero_le 1
  | cons r rest ih =>
      rw [List.map_cons, Json.Value.depthItems, positional.flat r]
      exact Nat.max_le.mpr ⟨le_rfl, ih⟩

theorem positional_sources : Positional SourceRow.cells SourceRow.ofCells? where
  reads r := by
    obtain ⟨id, name, workspaceId, pluginSrc, sealedData, health, createdAt, deletedAt⟩ := r
    cases deletedAt <;> exact ⟨_, rfl, rfl⟩
  integral r := by
    obtain ⟨id, name, workspaceId, pluginSrc, sealedData, health, createdAt, deletedAt⟩ := r
    cases deletedAt <;> exact ⟨trivial, trivial, trivial, trivial, trivial, trivial, trivial,
      trivial, trivial⟩
  flat r := by
    obtain ⟨id, name, workspaceId, pluginSrc, sealedData, health, createdAt, deletedAt⟩ := r
    cases deletedAt <;> rfl

theorem positional_texts {α : Type} {texts : α → List String}
    {row? : List Json.Value → Option α}
    (reads : ∀ r, row? ((texts r).map Json.Value.text) = some r) :
    Positional (fun r => Archive.cells (texts r)) row? where
  reads r := ⟨_, rfl, reads r⟩
  integral r := integral_texts (texts r)
  flat r := by
    change Json.Value.depthItems ((texts r).map Json.Value.text) + 1 = 1
    rw [depth_texts]

theorem positional_groups : Positional GroupRow.cells GroupRow.ofCells? :=
  positional_texts fun _ => by
    unfold GroupRow.ofCells?
    rw [texts_map]

theorem positional_metrics : Positional MetricRow.cells MetricRow.ofCells? :=
  positional_texts fun _ => by
    unfold MetricRow.ofCells?
    rw [texts_map]

theorem positional_executions : Positional ExecutionRow.cells ExecutionRow.ofCells? :=
  positional_texts fun _ => by
    unfold ExecutionRow.ofCells?
    rw [texts_map]

end Archive

namespace Database

open Archive

theorem ofJson_toJson (db : Database) : ofJson? db.toJson = some db := by
  unfold ofJson? toJson
  simp only [positional_sources.rows, positional_groups.rows, positional_metrics.rows,
    positional_executions.rows]
  rfl

theorem ofBytes_archive (db : Database) : Json.Value.ofBytes? db.archive = some db.toJson := by
  have sources := positional_sources.depthItems_le db.sources
  have groups := positional_groups.depthItems_le db.groups
  have metrics := positional_metrics.depthItems_le db.metrics
  have executions := positional_executions.depthItems_le db.executions
  apply Json.Value.ofBytes_of_bytes
  · exact ⟨positional_sources.integralItems _, positional_groups.integralItems _,
      positional_metrics.integralItems _, positional_executions.integralItems _, trivial⟩
  · unfold toJson
    simp only [Json.Value.depth, Json.Value.depthItems, Json.levelLimit]
    omega

/-- Every database comes back from its archive. -/
theorem ofArchive_archive (db : Database) : ofArchive? db.archive = some db := by
  have read := db.ofBytes_archive
  have nonempty : db.archive ≠ [] := by
    intro empty
    rw [empty] at read
    cases read
  unfold ofArchive?
  rw [if_neg nonempty, read]
  exact db.ofJson_toJson

end Database

/-! ### What has been inserted -/

namespace RelationalStore

open Database

variable {s after : RelationalStore}

theorem write_open {change : Database → Except Error Database}
    (written : s.write change = .ok after) : after.closed = false := by
  obtain ⟨opened, -⟩ := whenOpen_ok written
  obtain ⟨database, -, rfl⟩ := write_ok written
  exact opened

/-- A live source is found as it is read from its row. -/
theorem findDataSource_inserted {source : DataSource}
    (written : Store.insertDataSource source s = .ok after) (live : source.deletedAt = none) :
    Store.findDataSource source.id after =
      (parsed (SourceRow.ofSource source).toSource).map some := by
  have kept : isLive (.ofSource source) = true := by
    unfold isLive SourceRow.ofSource
    rw [live]
    rfl
  obtain ⟨fresh, rows⟩ := insertSource_ok written
  have search : after.database.sources.find? (fun r => r.id = source.id.text && isLive r) =
      some (.ofSource source) := by
    have absent : s.database.sources.find? (fun r => r.id = source.id.text && isLive r) = none := by
      rw [List.find?_eq_none]
      intro r stored found
      rw [Bool.and_eq_true, decide_eq_true_eq] at found
      exact fresh (List.mem_map.mpr ⟨r, stored, found.1⟩)
    rw [rows, List.find?_append, absent, Option.none_or, List.find?_cons_of_pos]
    rw [kept, Bool.and_true]
    exact decide_eq_true rfl
  refine (whenOpen_of_open _ (write_open written)).trans ?_
  rw [search]

section

variable {db : Database} {ms : List Metric} {m : Metric}

/-- A metric that has been added is found as it is read from its row and that of its execution. -/
theorem findMetric_added (opened : after.closed = false)
    (tables : after.database = db.addMetrics ms) (member : m ∈ ms)
    (distinct : (ms.map Metric.id).Nodup) (free : db.Free m) :
    Store.findMetric m.id after =
      (parsed ((MetricRow.ofMetric m).toMetric (executionRowFor m))).map some := by
  have wanted : (fun r : MetricRow => decide (r.id = m.id.text)) ∘ MetricRow.ofMetric =
      fun other => decide (other.id = m.id) :=
    funext fun other => EntityId.decide_text other.id m.id
  have before : db.metrics.filter (fun r => r.id = m.id.text) = [] := by
    rw [List.filter_eq_nil_iff]
    intro r stored same
    exact free.metric r stored (of_decide_eq_true same)
  have rows : (db.addMetrics ms).metrics.filter (fun r => r.id = m.id.text) = [.ofMetric m] := by
    refine (List.filter_append _ _).trans ?_
    rw [before, List.nil_append, List.filter_map, wanted,
      Store.filter_of_nodup Metric.id distinct member]
    rfl
  refine (whenOpen_of_open _ opened).trans ?_
  rw [tables, rows, List.filterMap_cons_some (join_addMetrics_new member distinct free)]

theorem findMetricExecution_added (opened : after.closed = false)
    (tables : after.database = db.addMetrics ms) (member : m ∈ ms)
    (distinct : (ms.map Metric.id).Nodup) (free : db.Free m) :
    Store.findMetricExecution m.id after = (parsed (executionRowFor m).toExecution).map some := by
  have joined := join_addMetrics_new member distinct free
  have search : (db.addMetrics ms).executions.find? (fun r => r.metricId = m.id.text) =
      some (executionRowFor m) := (join_eq_some joined).2
  refine (whenOpen_of_open _ opened).trans ?_
  rw [tables, search]

end

end RelationalStore

/-! ### Read back -/

namespace Canary

/-- The last nanosecond of the last leap second that is written with four digits. -/
def lastLeapSecond : Instant :=
  { civil :=
      { year := 9999, month := 12, day := 31, hour := 23, minute := 59, second := 60,
        nano := 999999999 }
    valid := by decide }

def deletedSource : DataSource :=
  { id := .ofNat 1
    name := "north \" é"
    workspaceId := .nil
    pluginSrc := "mock"
    sealedData := ""
    health := .unhealthy
    createdAt := .epoch
    deletedAt := some lastLeapSecond }

def extremeMetric : Metric :=
  { metric 3 with
    metric := "up"
    filters := [{ field := "path", operator := .notMatching, value := "\\d \" \n" }]
    groupBy := ["", "[\"a\"]"]
    condition := none
    threshold := .infinity true
    execution :=
      { (metric 3).execution with
        lastValue := .ofMagnitude true 0
        createdAt := lastLeapSecond } }

end Canary

namespace RelationalStore

open Database

/-- Rows are read back, column by column, as the entities that they have been written for. What has
been inserted is found again by its key, and whole tables come back from their archive. -/
theorem entities_read_back :
    (∀ source : DataSource, SourceRow.Timed source →
      DataSource.ofColumns (SourceRow.ofSource source).columns
          (SourceRow.ofSource source).deletedAt = .ok source ∧
        ∀ before after : RelationalStore, Store.insertDataSource source before = .ok after →
          source.deletedAt = none → Store.findDataSource source.id after = .ok (some source)) ∧
      (∀ m : Metric, m.createdAt.InCommonYears → m.execution.createdAt.InCommonYears →
        m.threshold.isNaN = false → m.execution.lastValue.isNaN = false →
        Metric.ofColumns ((MetricRow.ofMetric m).joinedColumns (executionRowFor m)) =
            .ok { m with execution := { m.execution with metricId := m.id } } ∧
          ∀ before after : RelationalStore,
            (Store.insertMetric m before = .ok after ∨
              ∃ g : MetricsGroup, m ∈ g.metrics ∧
                Store.insertMetricsGroup g before = .ok after) →
            Store.findMetric m.id after =
                .ok (some { m with execution := { m.execution with metricId := m.id } }) ∧
              Store.findMetricExecution m.id after =
                .ok (some { m.execution with metricId := m.id })) ∧
      (∀ (metricId : EntityId) (e : MetricExecution), e.createdAt.InCommonYears →
        e.lastValue.isNaN = false →
        MetricExecution.ofColumns (ExecutionRow.ofExecution metricId e).columns =
          .ok { e with metricId }) ∧
      ∀ db : Database, Database.ofArchive? db.archive = some db := by
  have executions : ∀ (metricId : EntityId) (e : MetricExecution), e.createdAt.InCommonYears →
      e.lastValue.isNaN = false →
      (ExecutionRow.ofExecution metricId e).toExecution = .ok { e with metricId } := by
    intro metricId e common number
    rw [ExecutionRow.toExecution_ofExecution common]
    unfold MetricExecution.settled
    rw [Binary64.settled_of_not_isNaN number]
  refine ⟨fun source timed => ?_, fun m common executionCommon threshold lastValue => ?_,
    fun metricId e common number => ?_, ofArchive_archive⟩
  · have read := SourceRow.toSource_ofSource timed
    refine ⟨(SourceRow.ofColumns_columns _).trans read, fun before after written live => ?_⟩
    rw [findDataSource_inserted written live, read]
    rfl
  · have read : (MetricRow.ofMetric m).toMetric (executionRowFor m) =
        .ok { m with execution := { m.execution with metricId := m.id } } := by
      unfold executionRowFor
      rw [MetricRow.toMetric_ofMetric common executionCommon]
      unfold Metric.settled MetricExecution.settled
      rw [Binary64.settled_of_not_isNaN threshold, Binary64.settled_of_not_isNaN lastValue]
    refine ⟨(MetricRow.ofColumns_joinedColumns _ _).trans read, fun before after written => ?_⟩
    obtain ⟨opened, db, ms, tables, member, distinct, free⟩ :
        after.closed = false ∧ ∃ (db : Database) (ms : List Metric),
          after.database = db.addMetrics ms ∧ m ∈ ms ∧ (ms.map Metric.id).Nodup ∧ db.Free m := by
      rcases written with alone | ⟨g, member, grouped⟩
      · have inserted : insertMetric m before = .ok after := alone
        have opened := write_open inserted
        obtain ⟨rfl, -, free⟩ := insertMetric_tables inserted
        exact ⟨opened, before.database, [m], rfl, List.mem_singleton_self m,
          List.nodup_singleton _, free⟩
      · have inserted : insertMetricsGroup g before = .ok after := grouped
        have opened := write_open inserted
        obtain ⟨rfl, -, distinct, free⟩ := insertMetricsGroup_tables inserted
        exact ⟨opened, _, g.metrics, rfl, member, distinct,
          { metric := (free m member).metric, owner := (free m member).owner }⟩
    rw [findMetric_added opened tables member distinct free,
      findMetricExecution_added opened tables member distinct free, read]
    unfold executionRowFor
    rw [executions m.id m.execution executionCommon lastValue]
    exact ⟨rfl, rfl⟩
  · exact (ExecutionRow.ofColumns_columns _).trans (executions metricId e common number)

theorem extreme_entities_read_back :
    DataSource.ofColumns (SourceRow.ofSource Canary.deletedSource).columns
        (SourceRow.ofSource Canary.deletedSource).deletedAt = .ok Canary.deletedSource ∧
      (∃ after, Store.insertMetricsGroup { Canary.group with metrics := [Canary.extremeMetric] }
          (onDatabase .empty) = .ok after ∧
        Store.findMetric (.ofNat 3) after =
          .ok (some { Canary.extremeMetric with
            execution := { Canary.extremeMetric.execution with metricId := .ofNat 3 } })) ∧
      MetricExecution.ofColumns
          (ExecutionRow.ofExecution (.ofNat 3) Canary.extremeMetric.execution).columns =
        .ok { Canary.extremeMetric.execution with metricId := .ofNat 3 } := by
  have timed : SourceRow.Timed Canary.deletedSource :=
    ⟨by decide, fun t deleted => Option.some.inj deleted ▸ by decide⟩
  have common : Canary.extremeMetric.createdAt.InCommonYears := by decide
  have executionCommon : Canary.extremeMetric.execution.createdAt.InCommonYears := by decide
  have threshold : Canary.extremeMetric.threshold.isNaN = false := by decide
  have lastValue : Canary.extremeMetric.execution.lastValue.isNaN = false := by decide
  obtain ⟨sources, metrics, executions, -⟩ := entities_read_back
  refine ⟨(sources _ timed).1, ⟨_, rfl, ?_⟩, executions _ _ executionCommon lastValue⟩
  have found := (metrics _ common executionCommon threshold lastValue).2 (onDatabase .empty) _
    (.inr ⟨{ Canary.group with metrics := [Canary.extremeMetric] }, List.mem_singleton_self _, rfl⟩)
  exact found.1

end RelationalStore

end RolloutWatch

import RolloutWatch.Proofs.Metric.QuerySpec
import RolloutWatch.Proofs.Number.PlainText
import RolloutWatch.Proofs.Relational.Rows
import RolloutWatch.Proofs.Time.RowText

/-!
Rows are read back as what they were written for. Numbers come back settled, as every NaN is
written alike, and instants come back if they lie in common years; all else comes back as it
was. An execution comes back under the identifier that its row was stored under.
-/

namespace RolloutWatch

/-! ### Without what no reader of rows sees -/

namespace MetricExecution

def settled (e : MetricExecution) : MetricExecution :=
  { e with lastValue := e.lastValue.settled }

end MetricExecution

namespace Metric

def settled (m : Metric) : Metric :=
  { m with threshold := m.threshold.settled, execution := m.execution.settled }

end Metric

namespace MetricsGroup

def settled (g : MetricsGroup) : MetricsGroup :=
  { g with metrics := g.metrics.map Metric.settled }

end MetricsGroup

/-! ### Columns -/

namespace Column

theorem id_idText (name : String) (id : EntityId) : Column.id name id.text = .ok id := by
  unfold Column.id
  rw [EntityId.ofString_text]

theorem number_numberText (name : String) (x : Binary64) :
    number name (numberText x) = .ok x.settled := by
  unfold number numberText
  rw [String.toList_ofList, Binary64.ofText_plainText]

theorem health_name (name : String) (h : Health) : named Health.ofText? name h.name = .ok h := by
  have read : Health.ofText? h.name = some h := by
    cases h <;> decide +kernel
  unfold named
  rw [read]

theorem status_name (name : String) (s : ExecutionStatus) :
    named ExecutionStatus.ofText? name s.name = .ok s := by
  have read : ExecutionStatus.ofText? s.name = some s := by
    cases s <;> decide +kernel
  unfold named
  rw [read]

theorem condition_conditionText (c : Option Condition) : condition (conditionText c) = .ok c := by
  cases c with
  | none => rfl
  | some c =>
      have read : Condition.ofText? c.name = some c := by
        cases c <;> decide +kernel
      have nonempty : c.name ≠ "" := by
        cases c <;> decide
      unfold condition conditionText
      rw [if_neg nonempty]
      unfold named
      rw [read]
      rfl

theorem list_listText {α : Type} {read : Json.Decoder α} {toJson : α → Json.Value}
    (legible : ∀ a, (toJson a).Legible)
    (reads : ∀ a, Json.Decoder.Reads read (Json.levelLimit - 1) (toJson a).tree a)
    (name : String) (values : List α) :
    list read name (listText (values.map toJson)) = .ok values := by
  have bytes : Utf8.ofString (listText (values.map toJson)) =
      (Json.Value.array (values.map toJson)).bytes := by
    unfold Utf8.ofString listText Json.Value.render Json.Value.bytes
    rw [String.toList_ofList]
  unfold list
  rw [bytes, Json.Decoder.readBytes_list legible reads]

end Column

/-! ### Rows -/

namespace SourceRow

def Timed (s : DataSource) : Prop :=
  s.createdAt.InCommonYears ∧ ∀ t, s.deletedAt = some t → t.InCommonYears

theorem toSource_ofSource {s : DataSource} (timed : Timed s) : (ofSource s).toSource = .ok s := by
  have deletion : deletion (s.deletedAt.map Column.instantText) = .ok s.deletedAt := by
    cases deleted : s.deletedAt with
    | none => rfl
    | some t =>
        have read := Column.instant_instantText (timed.2 t deleted)
        simp only [Option.map_some, SourceRow.deletion, read]
        rfl
  unfold toSource ofSource
  simp only [Column.id_idText, Column.health_name, Column.instant_instantText timed.1, deletion]
  rfl

end SourceRow

namespace GroupRow

theorem toGroup_ofGroup {g : MetricsGroup} (common : g.createdAt.InCommonYears)
    (metrics : List Metric) : (ofGroup g).toGroup metrics = .ok { g with metrics } := by
  unfold toGroup ofGroup
  simp only [Column.id_idText, Column.instant_instantText common]
  rfl

end GroupRow

namespace ExecutionRow

theorem toExecution_ofExecution {e : MetricExecution} (common : e.createdAt.InCommonYears)
    (metricId : EntityId) :
    (ofExecution metricId e).toExecution = .ok { e.settled with metricId } := by
  unfold toExecution ofExecution
  simp only [Column.id_idText, Column.number_numberText, Column.status_name,
    Column.instant_instantText common]
  rfl

end ExecutionRow

namespace MetricRow

/-- The rows of a metric and of its execution together give the metric. -/
theorem toMetric_ofMetric {m : Metric} {e : MetricExecution} (common : m.createdAt.InCommonYears)
    (executionCommon : e.createdAt.InCommonYears) :
    (ofMetric m).toMetric (ExecutionRow.ofExecution m.id e) =
      .ok { m.settled with execution := { e.settled with metricId := m.id } } := by
  have deep : 1 < Json.levelLimit - 1 := by decide
  have filters : Column.list MetricFilter.decoder "filters"
      (Column.listText (m.filters.map MetricFilter.toJson)) = .ok m.filters :=
    Column.list_listText MetricFilter.toJson_legible (MetricFilter.decoder_reads deep) _ _
  have groupBy : Column.list Json.Decoder.text "group_by"
      (Column.listText (m.groupBy.map Json.Value.text)) = .ok m.groupBy :=
    Column.list_listText Json.Decoder.text_legible (Json.Decoder.text_reads _) _ _
  have execution := ExecutionRow.toExecution_ofExecution executionCommon m.id
  unfold toMetric
  have row : { ExecutionRow.ofExecution m.id e with metricId := (ofMetric m).id } =
      ExecutionRow.ofExecution m.id e := rfl
  rw [row, execution]
  unfold ofMetric
  simp only [Column.id_idText, Column.number_numberText, Column.condition_conditionText,
    Column.instant_instantText common, filters, groupBy]
  rfl

end MetricRow

end RolloutWatch

import RolloutWatch.Proofs.Metric.QuerySpec
import RolloutWatch.Proofs.Metric.StatedCondition
import RolloutWatch.Proofs.Text.Identifier
import RolloutWatch.Proofs.Time.DocumentText

/-!
A printed group is read back as the group. Every field is printed under its own name, so no default
is taken and nothing is drawn from the supply. Numbers are read back as far as their numerals are.
-/

namespace RolloutWatch

open Json.Decoder (Reads bind_of_some)
open Json.Fields (required_reads orElse_reads orDefault_reads)

/-! ### Fields -/

theorem EntityId.decoder_reads (levels : Nat) (id : EntityId) :
    Reads EntityId.decoder levels id.toJson.tree id :=
  Json.Decoder.parsed_reads (EntityId.ofString_text id) levels

theorem Instant.decoder_reads (levels : Nat) (t : Instant) :
    Reads Instant.decoder levels t.toJson.tree t := by
  refine Json.Decoder.parsed_reads ?_ levels
  rw [String.toList_ofList, Rfc3339.relaxed_documentText]

theorem ExecutionStatus.decoder_reads (levels : Nat) (status : ExecutionStatus) :
    Reads ExecutionStatus.decoder levels (Json.Value.text status.name).tree status :=
  Json.Decoder.named_reads (by cases status <;> decide) levels

theorem Condition.ofText_name (c : Condition) : Condition.ofText? c.name = some c := by
  cases c <;> decide +kernel

/-! ### Executions -/

namespace MetricExecution

theorem toJson_legible {e : MetricExecution} (printable : e.lastValue.Printable) :
    e.toJson.Legible :=
  ⟨trivial, trivial, printable.legible, trivial, trivial, trivial⟩

theorem decoder_reads {levels : Nat} (deep : 1 < levels) {e : MetricExecution}
    (printable : e.lastValue.Printable) : Reads decoder levels e.toJson.tree e := by
  refine Json.Decoder.entity_reads deep rfl (by decide) fun supply => ?_
  have ids (id : EntityId) := id.decoder_reads (levels - 1)
  rw [bind_of_some (required_reads rfl (ids e.id) supply),
    bind_of_some (required_reads rfl (ids e.metricId) supply),
    bind_of_some (required_reads rfl (printable.reads _) supply),
    bind_of_some (required_reads rfl (e.status.decoder_reads _) supply),
    bind_of_some (required_reads rfl (e.createdAt.decoder_reads _) supply)]
  rfl

end MetricExecution

/-! ### Metrics -/

namespace Metric

/-- The numbers that stand in a document of the metric. -/
def numbers (m : Metric) : List Binary64 :=
  [m.threshold, m.execution.lastValue]

def conditionJson (m : Metric) : Json.Value :=
  match m.condition with
  | some condition => .text condition.name
  | none => .null

theorem conditionJson_legible (m : Metric) : m.conditionJson.Legible := by
  unfold conditionJson
  split <;> trivial

theorem toJson_legible {m : Metric} (printable : ∀ x ∈ m.numbers, x.Printable) :
    m.toJson.Legible := by
  have threshold := printable m.threshold List.mem_cons_self
  have lastValue := printable m.execution.lastValue (List.mem_cons_of_mem _ List.mem_cons_self)
  have filters := MetricFilter.list_legible m.filters
  have groupBy := Json.Decoder.texts_legible m.groupBy
  have execution := MetricExecution.toJson_legible lastValue
  exact ⟨trivial, trivial, trivial, trivial, trivial, trivial, filters, groupBy,
    m.conditionJson_legible, threshold.legible, trivial, execution, trivial, trivial⟩

theorem lenientCondition_reads (levels : Nat) (m : Metric) :
    Reads lenientCondition levels m.conditionJson.tree m.condition := by
  intro supply
  unfold conditionJson
  cases m.condition with
  | none => rfl
  | some c =>
      rw [lenientCondition_eq, Json.Value.tree, statedCondition?, Json.WrittenText.decode_written,
        Option.map_some, Condition.ofText_name]
      rfl

theorem decoder_reads {levels : Nat} (deep : 3 < levels) {m : Metric}
    (printable : ∀ x ∈ m.numbers, x.Printable) : Reads decoder levels m.toJson.tree m := by
  have threshold := printable m.threshold List.mem_cons_self
  have lastValue := printable m.execution.lastValue (List.mem_cons_of_mem _ List.mem_cons_self)
  refine Json.Decoder.entity_reads (by omega) rfl (by decide) fun supply => ?_
  have ids (id : EntityId) := id.decoder_reads (levels - 1)
  have text (s : String) := Json.Decoder.text_reads (levels - 1) s
  have filters := MetricFilter.list_reads (by omega : 2 < levels - 1) m.filters
  have groupBy := Json.Decoder.texts_reads (by omega : 1 < levels - 1) m.groupBy
  rw [bind_of_some (orElse_reads rfl (ids m.id) _ supply),
    bind_of_some (orDefault_reads rfl (ids m.metricsGroupId) _ supply),
    bind_of_some (orDefault_reads rfl (ids m.dataSourceId) _ supply),
    bind_of_some (orDefault_reads rfl (text m.nickname) _ supply),
    bind_of_some (orDefault_reads rfl (text m.query) _ supply),
    bind_of_some (orDefault_reads rfl (text m.metric) _ supply),
    bind_of_some (orDefault_reads rfl filters _ supply),
    bind_of_some (orDefault_reads rfl groupBy _ supply),
    bind_of_some (orDefault_reads rfl (m.lenientCondition_reads _) _ supply),
    bind_of_some (orDefault_reads rfl (threshold.reads _) _ supply),
    bind_of_some (orDefault_reads rfl (ids m.circleId) _ supply),
    bind_of_some (orElse_reads rfl (MetricExecution.decoder_reads (by omega) lastValue) _ supply),
    bind_of_some (orElse_reads rfl (m.createdAt.decoder_reads _) _ supply)]
  rfl

end Metric

/-! ### Groups -/

namespace MetricsGroup

def numbers (g : MetricsGroup) : List Binary64 :=
  g.metrics.flatMap Metric.numbers

theorem toJson_legible {g : MetricsGroup} (printable : ∀ x ∈ g.numbers, x.Printable) :
    g.toJson.Legible := by
  have metrics : Json.Value.LegibleItems (g.metrics.map Metric.toJson) :=
    Json.Decoder.legibleItems_map fun m member => Metric.toJson_legible fun x inside =>
      printable x (List.mem_flatMap.mpr ⟨m, member, inside⟩)
  exact ⟨trivial, trivial, metrics, trivial, trivial, trivial, trivial⟩

theorem decoder_reads {levels : Nat} (deep : 5 < levels) {g : MetricsGroup}
    (printable : ∀ x ∈ g.numbers, x.Printable) : Reads decoder levels g.toJson.tree g := by
  refine Json.Decoder.entity_reads (by omega) rfl (by decide) fun supply => ?_
  have ids (id : EntityId) := id.decoder_reads (levels - 1)
  have metrics : Reads (Json.Decoder.list Metric.decoder) (levels - 1)
      (Json.Value.array (g.metrics.map Metric.toJson)).tree g.metrics :=
    Json.Decoder.list_map_reads (by omega) fun m member =>
      Metric.decoder_reads (by omega) fun x inside =>
        printable x (List.mem_flatMap.mpr ⟨m, member, inside⟩)
  rw [bind_of_some (orElse_reads rfl (ids g.id) _ supply),
    bind_of_some (orDefault_reads rfl (Json.Decoder.text_reads _ g.name) _ supply),
    bind_of_some (orDefault_reads rfl metrics _ supply),
    bind_of_some (orDefault_reads rfl (ids g.workspaceId) _ supply),
    bind_of_some (orDefault_reads rfl (ids g.circleId) _ supply),
    bind_of_some (orElse_reads rfl (g.createdAt.decoder_reads _) _ supply)]
  rfl

/-- The printed text of a group is read back as the group, whatever the supply has to give. -/
theorem ofDocument_toJson {g : MetricsGroup} (finite : ∀ x ∈ g.numbers, x.isFinite = true)
    (back : ∀ x ∈ g.numbers, x.ReadBack) (supply : Supply) :
    ofDocument? g.toJson.bytes supply = some (g, supply) := by
  have printable : ∀ x ∈ g.numbers, x.Printable :=
    fun x inside => ⟨finite x inside, back x inside⟩
  unfold ofDocument? Json.Decoder.ofBytes?
  rw [Json.Value.ofBytes_bytes _ (toJson_legible printable), Option.bind_some]
  exact decoder_reads (by decide) printable supply

/-! ### A group with one metric -/

/-- The last second of a year that is written with a sign, a leap second with all nine places. -/
def signedLeapSecond : Instant :=
  { civil :=
      { year := -44, month := 12, day := 31, hour := 23, minute := 59, second := 60
        nano := 123456789 }
    valid := by decide }

/-- A group with a filtered metric, a threshold of one half and a last value of minus one
quarter. -/
def halfCanary : MetricsGroup :=
  { id := { bits := 1 }
    name := "canary \"A\""
    metrics :=
      [{ id := { bits := 2 }
         metricsGroupId := { bits := 1 }
         dataSourceId := { bits := 3 }
         nickname := "errors"
         query := ""
         metric := "requests"
         filters := [{ field := "status", operator := .matching, value := "5.." }]
         groupBy := ["path"]
         condition := some .lessThan
         threshold := { bits := 0x3FE0000000000000 }
         circleId := .nil
         execution :=
           { id := { bits := 4 }, metricId := { bits := 2 }
             lastValue := { bits := 0xBFD0000000000000 }
             status := .reached, createdAt := signedLeapSecond }
         createdAt := .epoch }]
    workspaceId := .nil
    circleId := { bits := 5 }
    createdAt := signedLeapSecond }

theorem halfCanary_read_back :
    ofDocument? halfCanary.toJson.bytes .idle = some (halfCanary, .idle) :=
  ofDocument_toJson (by decide +kernel) (by decide +kernel) .idle

end MetricsGroup

end RolloutWatch

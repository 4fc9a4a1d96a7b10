import RolloutWatch.Metric.QuerySpec
import RolloutWatch.Proofs.Json.Printed

/-!
Filters and questions are read back as they were printed, whatever their texts are.
-/

namespace RolloutWatch

open Json.Decoder (bind_of_some)
open Json.Fields (required_reads orDefault_reads)

/-! ### Filters -/

namespace MetricFilter

theorem toJson_legible (f : MetricFilter) : f.toJson.Legible :=
  ⟨trivial, trivial, trivial, trivial⟩

theorem operator_reads (levels : Nat) (o : FilterOperator) :
    Json.Decoder.Reads FilterOperator.decoder levels (Json.Value.text o.name).tree o :=
  Json.Decoder.named_reads (by cases o <;> decide) levels

theorem decoder_reads {levels : Nat} (deep : 1 < levels) (f : MetricFilter) :
    Json.Decoder.Reads decoder levels f.toJson.tree f := by
  refine Json.Decoder.entity_reads deep rfl (by decide) fun supply => ?_
  have text (s : String) := Json.Decoder.text_reads (levels - 1) s
  rw [bind_of_some (required_reads rfl (text f.field) supply),
    bind_of_some (orDefault_reads rfl (operator_reads _ f.operator) _ supply),
    bind_of_some (required_reads rfl (text f.value) supply)]
  rfl

theorem list_legible (filters : List MetricFilter) :
    Json.Value.LegibleItems (filters.map toJson) :=
  Json.Decoder.legibleItems_map fun f _ => f.toJson_legible

theorem list_reads {levels : Nat} (deep : 2 < levels) (filters : List MetricFilter) :
    Json.Decoder.Reads (Json.Decoder.list decoder) levels
      (Json.Value.array (filters.map toJson)).tree filters :=
  Json.Decoder.list_map_reads (by omega) fun f _ => f.decoder_reads (by omega)

end MetricFilter

/-! ### Questions -/

namespace QuerySpec

theorem toJson_legible (spec : QuerySpec) : spec.toJson.Legible :=
  ⟨trivial, trivial, MetricFilter.list_legible spec.filters,
    Json.Decoder.texts_legible spec.groupBy, trivial⟩

theorem decoder_reads {levels : Nat} (deep : 3 < levels) (spec : QuerySpec) :
    Json.Decoder.Reads decoder levels spec.toJson.tree spec := by
  refine Json.Decoder.entity_reads (by omega) rfl (by decide) fun supply => ?_
  have text (s : String) := Json.Decoder.text_reads (levels - 1) s
  have filters := MetricFilter.list_reads (by omega : 2 < levels - 1) spec.filters
  have groupBy := Json.Decoder.texts_reads (by omega : 1 < levels - 1) spec.groupBy
  rw [bind_of_some (required_reads rfl (text spec.query) supply),
    bind_of_some (required_reads rfl (text spec.metric) supply),
    bind_of_some (required_reads rfl filters supply),
    bind_of_some (required_reads rfl groupBy supply)]
  rfl

theorem ofBytes_toBytes (spec : QuerySpec) : ofBytes? spec.toBytes = some spec :=
  Json.Decoder.readBytes_bytes spec.toJson_legible (spec.decoder_reads (by decide))

end QuerySpec

end RolloutWatch

import RolloutWatch.Metric.Filter

/-!
What a driver is told about a metric: the parts of it that make up the question to the
telemetry backend, handed over as a document.
-/

namespace RolloutWatch

structure QuerySpec where
  query : String
  metric : String
  filters : List MetricFilter
  groupBy : List String
  deriving DecidableEq

namespace QuerySpec

def toJson (spec : QuerySpec) : Json.Value :=
  .object
    [("query", .text spec.query), ("metric", .text spec.metric),
      ("filters", .array (spec.filters.map MetricFilter.toJson)),
      ("groupBy", .array (spec.groupBy.map Json.Value.text))]

def toBytes (spec : QuerySpec) : List UInt8 :=
  spec.toJson.bytes

def decoder : Json.Decoder QuerySpec :=
  Json.Decoder.entity ["query", "metric", "filters", "groupBy"] fun fields => do
    let query ← fields.required "query" Json.Decoder.text
    let metric ← fields.required "metric" Json.Decoder.text
    let filters ← fields.required "filters" (Json.Decoder.list MetricFilter.decoder)
    let groupBy ← fields.required "groupBy" (Json.Decoder.list Json.Decoder.text)
    pure { query, metric, filters, groupBy }

def ofBytes? (bytes : List UInt8) : Option QuerySpec :=
  Json.Decoder.readBytes? decoder bytes

end QuerySpec

end RolloutWatch

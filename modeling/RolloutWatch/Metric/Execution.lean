import RolloutWatch.Json.Printer
import RolloutWatch.Metric.Condition
import RolloutWatch.Time.Rfc3339

/-!
The running state of a watched metric: the last reading and whether the condition has been
met. The written forms of identifiers and instants in documents are here as well.
-/

namespace RolloutWatch

namespace EntityId

def toJson (id : EntityId) : Json.Value :=
  .text id.text

def decoder : Json.Decoder EntityId :=
  Json.Decoder.parsed ofString?

end EntityId

namespace Instant

def toJson (t : Instant) : Json.Value :=
  .text (String.ofList (Rfc3339.documentText t))

def decoder : Json.Decoder Instant :=
  Json.Decoder.parsed fun s => Rfc3339.relaxed? s.toList

end Instant

structure MetricExecution where
  id : EntityId
  metricId : EntityId
  lastValue : Binary64
  status : ExecutionStatus
  createdAt : Instant
  deriving DecidableEq

namespace MetricExecution

/-- The state of a metric that has no reading yet. -/
def fresh (metricId : EntityId) (supply : Supply) : MetricExecution × Supply :=
  let (id, supply) := supply.freshId
  let (createdAt, supply) := supply.now
  ({ id, metricId, lastValue := .zero, status := .active, createdAt }, supply)

def isReached (e : MetricExecution) : Bool :=
  e.status = .reached

def toJson (e : MetricExecution) : Json.Value :=
  .object
    [("id", e.id.toJson), ("metricId", e.metricId.toJson),
      ("lastValue", .number (.real e.lastValue)), ("status", .text e.status.name),
      ("createdAt", e.createdAt.toJson)]

def decoder : Json.Decoder MetricExecution :=
  Json.Decoder.entity ["id", "metricId", "lastValue", "status", "createdAt"] fun fields => do
    let id ← fields.required "id" EntityId.decoder
    let metricId ← fields.required "metricId" EntityId.decoder
    let lastValue ← fields.required "lastValue" Json.Decoder.binary64
    let status ← fields.required "status" ExecutionStatus.decoder
    let createdAt ← fields.required "createdAt" Instant.decoder
    pure { id, metricId, lastValue, status, createdAt }

end MetricExecution

end RolloutWatch

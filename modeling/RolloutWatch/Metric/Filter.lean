import RolloutWatch.Json.Decoder
import RolloutWatch.Json.Printer

/-!
Filters on the labels of a metric: a field, how it is compared, and the value it is compared
with.
-/

namespace RolloutWatch

inductive FilterOperator where
  | equal
  | notEqual
  | matching
  | notMatching
  deriving DecidableEq

namespace FilterOperator

def name : FilterOperator → String
  | .equal => "="
  | .notEqual => "!="
  | .matching => "=~"
  | .notMatching => "!~"

def ofName? (s : String) : Option FilterOperator :=
  if s = "=" then some .equal
  else if s = "!=" then some .notEqual
  else if s = "=~" then some .matching
  else if s = "!~" then some .notMatching
  else none

def decoder : Json.Decoder FilterOperator :=
  Json.Decoder.named ofName?

end FilterOperator

structure MetricFilter where
  field : String
  operator : FilterOperator
  value : String
  deriving DecidableEq

namespace MetricFilter

def toJson (f : MetricFilter) : Json.Value :=
  .object
    [("field", .text f.field), ("operator", .text f.operator.name), ("value", .text f.value)]

/-- Without an operator a filter asks for equality. -/
def decoder : Json.Decoder MetricFilter :=
  Json.Decoder.entity ["field", "operator", "value"] fun fields => do
    let field ← fields.required "field" Json.Decoder.text
    let operator ← fields.orDefault "operator" FilterOperator.decoder .equal
    let value ← fields.required "value" Json.Decoder.text
    pure { field, operator, value }

end MetricFilter

end RolloutWatch

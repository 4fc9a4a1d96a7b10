import RolloutWatch.Driver.Error
import RolloutWatch.Metric.QuerySpec
import RolloutWatch.Text.Blank

/-!
The query expression for a metric. A query of its own is taken as it is; otherwise the
expression is the metric's name with one matcher for each filter, summed by the given labels.
-/

namespace RolloutWatch.Prometheus

/-- Backslashes and quotes inside a literal are escaped, and nothing else is. -/
def escapeChar (c : Char) : List Char :=
  if c = '\\' then ['\\', '\\'] else if c = '"' then ['\\', '"'] else [c]

def literal (value : String) : List Char :=
  '"' :: value.toList.flatMap escapeChar ++ ['"']

def matcher (f : MetricFilter) : List Char :=
  f.field.toList ++ f.operator.name.toList ++ literal f.value

def commaSeparated : List (List Char) → List Char
  | [] => []
  | [last] => last
  | first :: rest => first ++ ',' :: commaSeparated rest

def selector (metric : List Char) (filters : List MetricFilter) : List Char :=
  if filters = [] then metric
  else
    metric ++ Char.ofNat 0x7B :: commaSeparated (filters.map matcher) ++ [Char.ofNat 0x7D]

def expression (spec : QuerySpec) : Except DriverError String :=
  if !Blank.isBlank spec.query then .ok spec.query
  else
    let metric := Blank.trim spec.metric.toList
    if metric = [] then .error (.of .spec "metric or query is required")
    else
      let selected := selector metric spec.filters
      .ok (String.ofList
        (if spec.groupBy = [] then selected
          else
            "sum(".toList ++ selected ++ ") by (".toList
              ++ commaSeparated (spec.groupBy.map String.toList) ++ [')']))

end RolloutWatch.Prometheus

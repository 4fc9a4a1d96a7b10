import RolloutWatch.Engine.Evaluation

/-!
What commands say of stored things and of evaluations.
-/

namespace RolloutWatch.Report

def count (n : Nat) : String :=
  String.ofList (Digits.ofNat n)

def lines (texts : List String) : String :=
  String.join (texts.map fun text => text ++ "\n")

def listing {α : Type} (heading : String) (item : α → String) (items : List α) : String :=
  lines ((heading ++ ": " ++ count items.length) :: items.map fun a => "  " ++ item a)

def source (s : DataSource) : String :=
  s.id.text ++ " " ++ s.name ++ " (" ++ s.pluginSrc ++ ", " ++ s.health.name ++ ")"

def group (g : MetricsGroup) : String :=
  g.id.text ++ " " ++ g.name ++ " (circle " ++ g.circleId.text ++ ", "
    ++ count g.metrics.length ++ " metrics)"

def execution (e : MetricExecution) : String :=
  e.metricId.text ++ " " ++ e.status.name ++ " last value "
    ++ String.ofList e.lastValue.plainText

def sources (all : List DataSource) : String :=
  listing "Data sources" source all

def groups (all : List MetricsGroup) : String :=
  listing "Metrics groups" group all

def executions (all : List MetricExecution) : String :=
  listing "Metric executions" execution all

def document (v : Json.Value) : String :=
  lines [String.ofList (v.indented 0)]

def ordered : Json.Value → Json.Value
  | .object members =>
      .object (members.foldl (fun table member => Keyed.put member.1 member.2 table) [])
  | other => other

def evaluation (e : GroupEvaluation) : Json.Value :=
  .object
    [("executions", .array (e.executions.map fun x => ordered x.toJson)),
      ("failures", .object (e.failures.map fun (key, error) => (key, .text error.text))),
      ("groupId", e.groupId.toJson),
      ("results", .object e.results)]

end RolloutWatch.Report

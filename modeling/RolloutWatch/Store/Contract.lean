import RolloutWatch.DataSource
import RolloutWatch.Error
import RolloutWatch.Metric.Group

/-!
What the services need of a store. Reads leave the store as it is. A write gives the next
store, and an error of a write gives none, so that a failed write changes nothing. The typed
updates answer whether there was something to update.
-/

namespace RolloutWatch

class Store (σ : Type) where
  insertDataSource : DataSource → σ → Except Error σ
  findDataSource : EntityId → σ → Except Error (Option DataSource)
  listDataSources : EntityId → Option Health → σ → Except Error (List DataSource)
  setDataSourceHealth : EntityId → Health → σ → Except Error (Bool × σ)
  softDeleteDataSource : EntityId → Instant → σ → Except Error (Bool × σ)
  insertMetricsGroup : MetricsGroup → σ → Except Error σ
  listMetricsGroups : σ → Except Error (List MetricsGroup)
  findMetricsGroup : EntityId → σ → Except Error (Option MetricsGroup)
  updateMetricsGroup : EntityId → MetricsGroupUpdate → σ → Except Error (Bool × σ)
  deleteMetricsGroup : EntityId → σ → Except Error (Bool × σ)
  insertMetric : Metric → σ → Except Error σ
  findMetric : EntityId → σ → Except Error (Option Metric)
  updateMetric : Metric → σ → Except Error (Bool × σ)
  deleteMetric : EntityId → σ → Except Error (Bool × σ)
  listMetricExecutions : σ → Except Error (List MetricExecution)
  findMetricExecution : EntityId → σ → Except Error (Option MetricExecution)
  updateMetricExecution : MetricExecution → σ → Except Error (Bool × σ)
  close : σ → σ

namespace Store

def updateFirst {α : Type} (p : α → Bool) (change : α → α) : List α → Bool × List α
  | [] => (false, [])
  | a :: rest =>
      if p a then (true, change a :: rest)
      else
        let (found, rest) := updateFirst p change rest
        (found, a :: rest)

end Store

namespace Metric

/-- The metric with the definition of another one; its place, its execution and the time of
its creation stay. -/
def withDefinitionOf (m definition : Metric) : Metric :=
  { m with
    dataSourceId := definition.dataSourceId
    nickname := definition.nickname
    query := definition.query
    metric := definition.metric
    filters := definition.filters
    groupBy := definition.groupBy
    condition := definition.condition
    threshold := definition.threshold
    circleId := definition.circleId }

end Metric

namespace MetricExecution

def withStateOf (e state : MetricExecution) : MetricExecution :=
  { e with lastValue := state.lastValue, status := state.status }

end MetricExecution

end RolloutWatch

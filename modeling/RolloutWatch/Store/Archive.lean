import RolloutWatch.Store.Relational

/-!
Archives of databases: a JSON document with one list of rows for each table, in which a row is
the list of its columns. Reading gives back what was written. An empty file is the archive of
a database that holds nothing yet.
-/

namespace RolloutWatch

namespace Archive

def cells (texts : List String) : Json.Value :=
  .array (texts.map Json.Value.text)

def texts? : List Json.Value → Option (List String)
  | [] => some []
  | .text s :: rest => (texts? rest).map (s :: ·)
  | _ => none

def rows? {α : Type} (row? : List Json.Value → Option α) : Json.Value → Option (List α)
  | .array items => items.mapM fun item =>
      match item with
      | .array row => row? row
      | _ => none
  | _ => none

end Archive

namespace SourceRow

def cells (r : SourceRow) : Json.Value :=
  .array
    [.text r.id, .text r.name, .text r.workspaceId, .text r.pluginSrc, .text r.sealedData,
      .text r.health, .text r.createdAt,
      match r.deletedAt with
      | some time => .text time
      | none => .null]

def ofCells? : List Json.Value → Option SourceRow
  | [.text id, .text name, .text workspaceId, .text pluginSrc, .text sealedData, .text health,
      .text createdAt, .text deletedAt] =>
      some
        { id, name, workspaceId, pluginSrc, sealedData, health, createdAt,
          deletedAt := some deletedAt }
  | [.text id, .text name, .text workspaceId, .text pluginSrc, .text sealedData, .text health,
      .text createdAt, .null] =>
      some
        { id, name, workspaceId, pluginSrc, sealedData, health, createdAt, deletedAt := none }
  | _ => none

end SourceRow

namespace GroupRow

def cells (r : GroupRow) : Json.Value :=
  Archive.cells [r.id, r.name, r.workspaceId, r.circleId, r.createdAt]

def ofCells? (row : List Json.Value) : Option GroupRow :=
  match Archive.texts? row with
  | some [id, name, workspaceId, circleId, createdAt] =>
      some { id, name, workspaceId, circleId, createdAt }
  | _ => none

end GroupRow

namespace MetricRow

def cells (r : MetricRow) : Json.Value :=
  Archive.cells
    [r.id, r.metricsGroupId, r.dataSourceId, r.nickname, r.query, r.metric, r.filters,
      r.groupBy, r.condition, r.threshold, r.circleId, r.createdAt]

def ofCells? (row : List Json.Value) : Option MetricRow :=
  match Archive.texts? row with
  | some [id, metricsGroupId, dataSourceId, nickname, query, metric, filters, groupBy,
      condition, threshold, circleId, createdAt] =>
      some
        { id, metricsGroupId, dataSourceId, nickname, query, metric, filters, groupBy,
          condition, threshold, circleId, createdAt }
  | _ => none

end MetricRow

namespace ExecutionRow

def cells (r : ExecutionRow) : Json.Value :=
  Archive.cells [r.id, r.metricId, r.lastValue, r.status, r.createdAt]

def ofCells? (row : List Json.Value) : Option ExecutionRow :=
  match Archive.texts? row with
  | some [id, metricId, lastValue, status, createdAt] =>
      some { id, metricId, lastValue, status, createdAt }
  | _ => none

end ExecutionRow

namespace Database

def toJson (db : Database) : Json.Value :=
  .array
    [.array (db.sources.map SourceRow.cells), .array (db.groups.map GroupRow.cells),
      .array (db.metrics.map MetricRow.cells), .array (db.executions.map ExecutionRow.cells)]

def ofJson? : Json.Value → Option Database
  | .array [sources, groups, metrics, executions] => do
      let sources ← Archive.rows? SourceRow.ofCells? sources
      let groups ← Archive.rows? GroupRow.ofCells? groups
      let metrics ← Archive.rows? MetricRow.ofCells? metrics
      let executions ← Archive.rows? ExecutionRow.ofCells? executions
      pure { sources, groups, metrics, executions }
  | _ => none

def archive (db : Database) : List UInt8 :=
  db.toJson.bytes

def ofArchive? (bytes : List UInt8) : Option Database :=
  if bytes = [] then some empty
  else (Json.Value.ofBytes? bytes).bind ofJson?

end Database

end RolloutWatch

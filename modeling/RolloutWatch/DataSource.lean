import RolloutWatch.Metric.Execution
import RolloutWatch.Text.Blank
import RolloutWatch.Validation

/-!
Connections to telemetry backends. The configuration of a connection is kept sealed and is
opened at query time only. A deleted source stays stored, with the time of its deletion.
-/

namespace RolloutWatch

/-- Health as an external checker reports it. -/
inductive Health where
  | healthy
  | unhealthy
  | unknown
  deriving DecidableEq

namespace Health

def name : Health → String
  | .healthy => "HEALTHY"
  | .unhealthy => "UNHEALTHY"
  | .unknown => "UNKNOWN"

def ofName? (s : String) : Option Health :=
  if s = "HEALTHY" then some .healthy
  else if s = "UNHEALTHY" then some .unhealthy
  else if s = "UNKNOWN" then some .unknown
  else none

def ofText? (s : String) : Option Health :=
  ofName? (Upper.text s)

def unreadable (s : String) : String :=
  "Invalid health: " ++ s

def decoder : Json.Decoder Health :=
  Json.Decoder.named ofName?

end Health

structure DataSource where
  id : EntityId
  name : String
  workspaceId : EntityId
  pluginSrc : String
  sealedData : String
  health : Health
  createdAt : Instant
  deletedAt : Option Instant
  deriving DecidableEq

namespace DataSource

def isDeleted (s : DataSource) : Bool :=
  s.deletedAt.isSome

def toJson (s : DataSource) : Json.Value :=
  .object
    [("id", s.id.toJson), ("name", .text s.name), ("workspaceId", s.workspaceId.toJson),
      ("pluginSrc", .text s.pluginSrc), ("sealedData", .text s.sealedData),
      ("health", .text s.health.name), ("createdAt", s.createdAt.toJson),
      ("deletedAt", match s.deletedAt with
        | some t => t.toJson
        | none => .null)]

def fieldNames : List String :=
  ["id", "name", "workspaceId", "pluginSrc", "sealedData", "health", "createdAt", "deletedAt"]

def decoder : Json.Decoder DataSource :=
  Json.Decoder.entity fieldNames fun fields => do
    let id ← fields.required "id" EntityId.decoder
    let name ← fields.required "name" Json.Decoder.text
    let workspaceId ← fields.required "workspaceId" EntityId.decoder
    let pluginSrc ← fields.required "pluginSrc" Json.Decoder.text
    let sealedData ← fields.required "sealedData" Json.Decoder.text
    let health ← fields.required "health" Health.decoder
    let createdAt ← fields.required "createdAt" Instant.decoder
    let deletedAt ← fields.optional "deletedAt" Instant.decoder
    pure { id, name, workspaceId, pluginSrc, sealedData, health, createdAt, deletedAt }

end DataSource

/-- A connection to be stored, with its configuration in clear. -/
structure NewDataSource where
  name : String
  workspaceId : EntityId
  pluginSrc : String
  data : Json.Value

namespace NewDataSource

def violations (s : NewDataSource) : Violations :=
  Violations.none
    |>.check (Blank.isBlank s.name) "name" "Name is required"
    |>.check s.workspaceId.isNil "workspaceId" "WorkspaceID is required"
    |>.check (Blank.isBlank s.pluginSrc) "pluginSrc" "PluginSrc is required"

def toJson (s : NewDataSource) : Json.Value :=
  .object
    [("name", .text s.name), ("workspaceId", s.workspaceId.toJson),
      ("pluginSrc", .text s.pluginSrc), ("data", s.data)]

def decoder : Json.Decoder NewDataSource :=
  Json.Decoder.entity ["name", "workspaceId", "pluginSrc", "data"] fun fields => do
    let name ← fields.orDefault "name" Json.Decoder.text ""
    let workspaceId ← fields.orDefault "workspaceId" EntityId.decoder .nil
    let pluginSrc ← fields.orDefault "pluginSrc" Json.Decoder.text ""
    let data ← fields.orDefault "data" Json.Decoder.value .null
    pure { name, workspaceId, pluginSrc, data }

end NewDataSource

end RolloutWatch

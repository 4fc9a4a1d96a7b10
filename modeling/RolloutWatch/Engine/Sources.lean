import RolloutWatch.Engine.World

/-!
Management of data sources. A configuration is sealed when its source is created and is
opened only on request. Deleting hides a source from every read and keeps it stored.
-/

namespace RolloutWatch.Sources

variable {σ : Type} [Store σ]

def create (engine : Engine) (input : NewDataSource) : Action σ DataSource := do
  Action.ofExcept input.violations.toResult
  let id ← Action.draw Supply.freshId
  let nonce ← Action.draw Supply.freshNonce
  let createdAt ← Action.draw Supply.now
  let source : DataSource :=
    { id
      name := input.name
      workspaceId := input.workspaceId
      pluginSrc := input.pluginSrc
      sealedData := engine.cipher.sealConfig nonce input.data
      health := .unknown
      createdAt
      deletedAt := none }
  Action.write (Store.insertDataSource source)
  pure source

def list (workspaceId : EntityId) (health : Option Health) : Action σ (List DataSource) :=
  Action.read (Store.listDataSources workspaceId health)

def find (id : EntityId) : Action σ DataSource := do
  let found ← Action.read (Store.findDataSource id)
  Action.orNotFound .dataSource id found

def findDecrypted (engine : Engine) (id : EntityId) : Action σ (DataSource × Json.Value) := do
  let source ← find id
  let config ← Action.ofExcept (engine.cipher.openConfig source.sealedData)
  pure (source, config)

def delete (id : EntityId) : Action σ Unit := do
  let deletedAt ← Action.draw Supply.now
  let found ← Action.writeWhere (Store.softDeleteDataSource id deletedAt)
  Action.expectFound .dataSource id found

def setHealth (id : EntityId) (health : Health) : Action σ Unit := do
  let found ← Action.writeWhere (Store.setDataSourceHealth id health)
  Action.expectFound .dataSource id found

end RolloutWatch.Sources

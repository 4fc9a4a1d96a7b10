import RolloutWatch.Proofs.Action
import RolloutWatch.Engine.Groups
import RolloutWatch.Engine.Sources
import RolloutWatch.Engine.Tracker

/-!
One equation for each service. It names the one write of the store that the service comes
down to, if it writes, what is drawn from the supply before it, and the answer.
-/

namespace RolloutWatch

variable {σ : Type} [Store σ]

namespace Sources

def prepare (engine : Engine) (input : NewDataSource) (supply : Supply) :
    DataSource × Supply :=
  let (id, supply) := supply.freshId
  let (nonce, supply) := supply.freshNonce
  let (createdAt, supply) := supply.now
  ({ id
     name := input.name
     workspaceId := input.workspaceId
     pluginSrc := input.pluginSrc
     sealedData := engine.cipher.sealConfig nonce input.data
     health := .unknown
     createdAt
     deletedAt := none }, supply)

theorem create_apply (engine : Engine) (input : NewDataSource) (world : World σ) :
    Sources.create engine input world =
      match input.violations.toResult with
      | .error e => (.error e, world)
      | .ok () =>
          let (source, supply) := prepare engine input world.supply
          match Store.insertDataSource source world.store with
          | .error e => (.error e, { world with supply })
          | .ok store => (.ok source, { world with supply, store }) := by
  unfold Sources.create
  cases input.violations.toResult with
  | error e => rfl
  | ok valid =>
      rw [Action.bind_ofExcept_ok, Action.bind_draw, Action.bind_draw, Action.bind_draw]
      exact Action.bind_write _ _ _

theorem delete_apply (id : EntityId) (world : World σ) :
    Sources.delete id world =
      let (deletedAt, supply) := world.supply.now
      match Store.softDeleteDataSource id deletedAt world.store with
      | .error e => (.error e, { world with supply })
      | .ok (found, store) =>
          (if found then .ok () else .error (.notFound .dataSource id),
            { world with supply, store }) := by
  unfold Sources.delete
  rw [Action.bind_draw]
  exact Action.writeWhere_expectFound _ _ _ _

theorem setHealth_apply (id : EntityId) (health : Health) (world : World σ) :
    Sources.setHealth id health world =
      match Store.setDataSourceHealth id health world.store with
      | .error e => (.error e, world)
      | .ok (found, store) =>
          (if found then .ok () else .error (.notFound .dataSource id),
            { world with store }) :=
  Action.writeWhere_expectFound _ _ _ _

theorem find_apply (id : EntityId) (world : World σ) :
    Sources.find id world =
      (Action.required .dataSource id (Store.findDataSource id world.store), world) :=
  Action.read_orNotFound _ _ _ _

theorem findDecrypted_apply (engine : Engine) (id : EntityId) (world : World σ) :
    Sources.findDecrypted engine id world =
      (match Action.required .dataSource id (Store.findDataSource id world.store) with
        | .error e => .error e
        | .ok source =>
            match engine.cipher.openConfig source.sealedData with
            | .error e => .error e
            | .ok config => .ok (source, config), world) := by
  unfold Sources.findDecrypted
  rw [Action.bind_apply, find_apply]
  cases Action.required .dataSource id (Store.findDataSource id world.store) with
  | error e => rfl
  | ok source =>
      simp only
      cases engine.cipher.openConfig source.sealedData <;> rfl

end Sources

namespace Groups

theorem find_apply (id : EntityId) (world : World σ) :
    Groups.find id world =
      (Action.required .metricsGroup id (Store.findMetricsGroup id world.store), world) :=
  Action.read_orNotFound _ _ _ _

theorem create_apply (g : MetricsGroup) (world : World σ) :
    Groups.create g world =
      match g.violations.toResult with
      | .error e => (.error e, world)
      | .ok () =>
          let (stored, supply) := prepare g world.supply
          match Store.insertMetricsGroup stored world.store with
          | .error e => (.error e, { world with supply })
          | .ok store => (.ok stored, { world with supply, store }) := by
  unfold Groups.create
  cases g.violations.toResult with
  | error e => rfl
  | ok valid =>
      rw [Action.bind_ofExcept_ok, Action.bind_draw]
      exact Action.bind_write _ _ _

theorem update_apply (id : EntityId) (u : MetricsGroupUpdate) (world : World σ) :
    Groups.update id u world =
      match u.violations.toResult with
      | .error e => (.error e, world)
      | .ok () =>
          match Store.updateMetricsGroup id u world.store with
          | .error e => (.error e, world)
          | .ok (false, store) => (.error (.notFound .metricsGroup id), { world with store })
          | .ok (true, store) => Groups.find id { world with store } := by
  unfold Groups.update
  cases u.violations.toResult with
  | error e => rfl
  | ok valid =>
      rw [Action.bind_ofExcept_ok, Action.bind_writeWhere]
      cases Store.updateMetricsGroup id u world.store with
      | error e => rfl
      | ok result =>
          obtain ⟨found, store⟩ := result
          cases found <;> rfl

theorem delete_apply (id : EntityId) (world : World σ) :
    Groups.delete id world =
      match Store.deleteMetricsGroup id world.store with
      | .error e => (.error e, world)
      | .ok (found, store) =>
          (if found then .ok () else .error (.notFound .metricsGroup id),
            { world with store }) :=
  Action.writeWhere_expectFound _ _ _ _

theorem addMetric_apply (groupId : EntityId) (m : Metric) (world : World σ) :
    Groups.addMetric groupId m world =
      match m.violations.toResult with
      | .error e => (.error e, world)
      | .ok () =>
          match Store.findMetricsGroup groupId world.store with
          | .error e => (.error e, world)
          | .ok none => (.error (.notFound .metricsGroup groupId), world)
          | .ok (some g) =>
              let (stored, supply) :=
                MetricsGroup.adoptMetric g.id g.circleId m world.supply
              match Store.insertMetric stored world.store with
              | .error e => (.error e, { world with supply })
              | .ok store => (.ok stored, { world with supply, store }) := by
  unfold Groups.addMetric
  cases m.violations.toResult with
  | error e => rfl
  | ok valid =>
      rw [Action.bind_ofExcept_ok, Action.bind_apply, find_apply]
      cases Store.findMetricsGroup groupId world.store with
      | error e => rfl
      | ok answer =>
          cases answer with
          | none => rfl
          | some g => exact Action.bind_write _ _ _

theorem updateMetric_apply (m : Metric) (world : World σ) :
    Groups.updateMetric m world =
      match m.violations.toResult with
      | .error e => (.error e, world)
      | .ok () =>
          match Store.updateMetric m world.store with
          | .error e => (.error e, world)
          | .ok (false, store) => (.error (.notFound .metric m.id), { world with store })
          | .ok (true, store) =>
              (Action.required .metric m.id (Store.findMetric m.id store),
                { world with store }) := by
  unfold Groups.updateMetric
  cases m.violations.toResult with
  | error e => rfl
  | ok valid =>
      rw [Action.bind_ofExcept_ok, Action.bind_writeWhere]
      cases Store.updateMetric m world.store with
      | error e => rfl
      | ok result =>
          obtain ⟨found, store⟩ := result
          cases found with
          | false => rfl
          | true => exact Action.read_orNotFound _ _ _ _

theorem removeMetric_apply (id : EntityId) (world : World σ) :
    Groups.removeMetric id world =
      match Store.deleteMetric id world.store with
      | .error e => (.error e, world)
      | .ok (found, store) =>
          (if found then .ok () else .error (.notFound .metric id), { world with store }) :=
  Action.writeWhere_expectFound _ _ _ _

end Groups

namespace Tracker

theorem findByMetric_apply (metricId : EntityId) (world : World σ) :
    Tracker.findByMetric metricId world =
      (Action.required .metricExecution metricId
        (Store.findMetricExecution metricId world.store), world) :=
  Action.read_orNotFound _ _ _ _

theorem update_apply (e : MetricExecution) (world : World σ) :
    Tracker.update e world =
      match Store.updateMetricExecution e world.store with
      | .error fault => (.error fault, world)
      | .ok (found, store) =>
          (if found then .ok e else .error (.notFound .metricExecution e.id),
            { world with store }) := by
  unfold Tracker.update
  rw [Action.bind_writeWhere]
  cases Store.updateMetricExecution e world.store with
  | error fault => rfl
  | ok result =>
      obtain ⟨found, store⟩ := result
      cases found <;> rfl

theorem record_apply (policy : TransitionPolicy) (m : Metric) (value : Binary64)
    (world : World σ) :
    Tracker.record policy m value world =
      match Store.findMetricExecution m.id world.store with
      | .error e => (.error e, world)
      | .ok none => (.error (.notFound .metricExecution m.id), world)
      | .ok (some e) => Tracker.update (afterReading policy m value e) world := by
  unfold Tracker.record
  rw [Action.bind_apply, findByMetric_apply]
  cases Store.findMetricExecution m.id world.store with
  | error e => rfl
  | ok answer => cases answer <;> rfl

end Tracker

end RolloutWatch

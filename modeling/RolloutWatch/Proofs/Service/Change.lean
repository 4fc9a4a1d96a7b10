import RolloutWatch.Proofs.Evaluation.Tracking
import RolloutWatch.Proofs.Metric.Validity
import RolloutWatch.Proofs.Service.Call

/-!
What a turn can do to a store. Whichever service is called and whether it succeeds, the turn
leaves the store as it is or comes down to one write with known arguments, which have passed
the checks of the service, and an evaluation comes down to writes of executions.
-/

namespace RolloutWatch

variable {σ : Type} [Store σ]

/-- The ways in which a turn can get from one store to the next. -/
inductive Change (turn : Turn) (before : σ) : σ → Prop where
  | kept : Change turn before before
  | sourceCreated (input : NewDataSource) {after : σ}
      (written : Store.insertDataSource
        (Sources.prepare turn.engine input turn.supply).1 before = .ok after)
      (called : turn.call = .createSource input) : Change turn before after
  | sourceDeleted (id : EntityId) (deletedAt : Instant) {found : Bool} {after : σ}
      (written : Store.softDeleteDataSource id deletedAt before = .ok (found, after))
      (called : turn.call = .deleteSource id) : Change turn before after
  | healthSet (id : EntityId) (health : Health) {found : Bool} {after : σ}
      (written : Store.setDataSourceHealth id health before = .ok (found, after))
      (called : turn.call = .setHealth id health) : Change turn before after
  | groupCreated (g : MetricsGroup) {after : σ}
      (drawn : turn.draws before =
        turn.supply.idsUpTo (Groups.prepare g turn.supply).2)
      (written : Store.insertMetricsGroup (Groups.prepare g turn.supply).1 before = .ok after)
      (checked : g.violations.isEmpty = true) : Change turn before after
  | groupUpdated (id : EntityId) (u : MetricsGroupUpdate) {found : Bool} {after : σ}
      (written : Store.updateMetricsGroup id u before = .ok (found, after))
      (checked : u.violations.isEmpty = true) : Change turn before after
  | groupDeleted (id : EntityId) {found : Bool} {after : σ}
      (written : Store.deleteMetricsGroup id before = .ok (found, after)) :
      Change turn before after
  | metricAdded (groupId circleId : EntityId) (m : Metric) {after : σ}
      (drawn : turn.draws before =
        turn.supply.idsUpTo (MetricsGroup.adoptMetric groupId circleId m turn.supply).2)
      (written :
        Store.insertMetric (MetricsGroup.adoptMetric groupId circleId m turn.supply).1 before =
          .ok after)
      (checked : m.violations.isEmpty = true)
      (adopts : ∃ id g, Store.findMetricsGroup id before = .ok (some g) ∧ g.id = groupId ∧
        g.circleId = circleId) : Change turn before after
  | metricUpdated (m : Metric) {found : Bool} {after : σ}
      (written : Store.updateMetric m before = .ok (found, after))
      (checked : m.violations.isEmpty = true)
      (called : turn.call = .updateMetric m) : Change turn before after
  | metricRemoved (id : EntityId) {found : Bool} {after : σ}
      (written : Store.deleteMetric id before = .ok (found, after))
      (called : turn.call = .removeMetric id) : Change turn before after
  | executionsWritten {after : σ}
      (writes : turn.call.setsExecution = true ∨ turn.call.keepsReadings = true)
      (written : ExecutionWrites before after) : Change turn before after
  | closed : Change turn before (Store.close before)

namespace Turn

private theorem change_of_leaves {turn : Turn} {before : σ} {left : World σ}
    (leaving : turn.leaves before = left)
    (change : turn.draws before = turn.supply.idsUpTo left.supply →
      Change turn before left.store) :
    Change turn before (turn.next before) := by
  unfold next
  rw [leaving]
  exact change (by unfold draws; rw [leaving])

private theorem change_of_kept {turn : Turn} {before : σ} (kept : turn.next before = before) :
    Change turn before (turn.next before) := by
  rw [kept]
  exact .kept

/-- Every turn makes one of the changes. The cases are the services, and in each of them the
service's equation leaves the write to be made or refused. -/
theorem change (turn : Turn) (before : σ) : Change turn before (turn.next before) := by
  obtain ⟨call, engine, supply, registry, clock, log⟩ := turn
  cases call with
  | createSource input =>
      refine change_of_leaves (congrArg Prod.snd (Sources.create_apply engine input _)) ?_
      cases input.violations.toResult with
      | error e => exact fun _ => .kept
      | ok valid =>
          simp only [world]
          cases written :
              Store.insertDataSource (Sources.prepare engine input supply).1 before with
          | error e => exact fun _ => .kept
          | ok after => exact fun _ => .sourceCreated input written rfl
  | deleteSource id =>
      refine change_of_leaves (congrArg Prod.snd (Sources.delete_apply id _)) ?_
      simp only [world]
      cases written : Store.softDeleteDataSource id supply.now.1 before with
      | error e => exact fun _ => .kept
      | ok result => exact fun _ => .sourceDeleted id supply.now.1 written rfl
  | setHealth id health =>
      refine change_of_leaves (congrArg Prod.snd (Sources.setHealth_apply id health _)) ?_
      simp only [world]
      cases written : Store.setDataSourceHealth id health before with
      | error e => exact fun _ => .kept
      | ok result => exact fun _ => .healthSet id health written rfl
  | createGroup g =>
      refine change_of_leaves (congrArg Prod.snd (Groups.create_apply g _)) ?_
      cases valid : g.violations.toResult with
      | error e => exact fun _ => .kept
      | ok _ =>
          simp only [world]
          cases written : Store.insertMetricsGroup (Groups.prepare g supply).1 before with
          | error e => exact fun _ => .kept
          | ok after => exact fun drawn =>
              .groupCreated g drawn written (Violations.toResult_ok.mp valid)
  | updateGroup id u =>
      refine change_of_leaves (congrArg Prod.snd (Groups.update_apply id u _)) ?_
      cases valid : u.violations.toResult with
      | error e => exact fun _ => .kept
      | ok _ =>
          have checked := Violations.toResult_ok.mp valid
          simp only [world]
          cases written : Store.updateMetricsGroup id u before with
          | error e => exact fun _ => .kept
          | ok result =>
              obtain ⟨found, after⟩ := result
              cases found with
              | false => exact fun _ => .groupUpdated id u written checked
              | true =>
                  simp only [Groups.find_apply]
                  exact fun _ => .groupUpdated id u written checked
  | deleteGroup id =>
      refine change_of_leaves (congrArg Prod.snd (Groups.delete_apply id _)) ?_
      simp only [world]
      cases written : Store.deleteMetricsGroup id before with
      | error e => exact fun _ => .kept
      | ok result => exact fun _ => .groupDeleted id written
  | addMetric groupId m =>
      refine change_of_leaves (congrArg Prod.snd (Groups.addMetric_apply groupId m _)) ?_
      cases valid : m.violations.toResult with
      | error e => exact fun _ => .kept
      | ok _ =>
          have checked := Violations.toResult_ok.mp valid
          simp only [world]
          cases loaded : Store.findMetricsGroup groupId before with
          | error e => exact fun _ => .kept
          | ok answer =>
              cases answer with
              | none => exact fun _ => .kept
              | some g =>
                  simp only
                  cases written : Store.insertMetric
                      (MetricsGroup.adoptMetric g.id g.circleId m supply).1 before with
                  | error e => exact fun _ => .kept
                  | ok after =>
                      exact fun drawn => .metricAdded g.id g.circleId m drawn written checked
                        ⟨groupId, g, loaded, rfl, rfl⟩
  | updateMetric m =>
      refine change_of_leaves (congrArg Prod.snd (Groups.updateMetric_apply m _)) ?_
      cases valid : m.violations.toResult with
      | error e => exact fun _ => .kept
      | ok _ =>
          simp only [world]
          cases written : Store.updateMetric m before with
          | error e => exact fun _ => .kept
          | ok result =>
              obtain ⟨found, after⟩ := result
              cases found <;>
                exact fun _ => .metricUpdated m written (Violations.toResult_ok.mp valid) rfl
  | removeMetric id =>
      refine change_of_leaves (congrArg Prod.snd (Groups.removeMetric_apply id _)) ?_
      simp only [world]
      cases written : Store.deleteMetric id before with
      | error e => exact fun _ => .kept
      | ok result => exact fun _ => .metricRemoved id written rfl
  -- These calls write executions, any number of them, and fail after some of them perhaps.
  | updateExecution e =>
      exact .executionsWritten (.inl rfl) (Tracker.update_writes e (world _ before))
  | record m value =>
      exact .executionsWritten (.inr rfl) (Tracker.record_writes _ m value (world _ before))
  | evaluate groupId =>
      exact .executionsWritten (.inr rfl)
        (Evaluation.evaluateWith_writes engine groupId _ (world _ before))
  | evaluateWith groupId limits =>
      exact .executionsWritten (.inr rfl)
        (Evaluation.evaluateWith_writes engine groupId limits (world _ before))
  | closeStore => exact .closed
  -- The rest only reads.
  | parseGroup document =>
      apply change_of_kept
      unfold next leaves world
      simp only [ServiceCall.perform, Groups.parse]
      split <;> rfl
  | findSource id =>
      exact change_of_kept (congrArg (fun left => left.2.store) (Sources.find_apply id _))
  | decryptSource id =>
      exact change_of_kept
        (congrArg (fun left => left.2.store) (Sources.findDecrypted_apply engine id _))
  | findGroup id =>
      exact change_of_kept (congrArg (fun left => left.2.store) (Groups.find_apply id _))
  | findExecution metricId =>
      exact change_of_kept
        (congrArg (fun left => left.2.store) (Tracker.findByMetric_apply metricId _))
  | listSources workspaceId health => exact .kept
  | listGroups => exact .kept
  | listExecutions => exact .kept

end Turn

end RolloutWatch

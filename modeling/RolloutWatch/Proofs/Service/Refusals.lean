import RolloutWatch.Proofs.Evaluation.Tracking
import RolloutWatch.Proofs.Metric.Validity
import RolloutWatch.Proofs.Service.Call

/-!
Calls that fail. A service that writes once fails before its write or because the write is refused,
and then nothing has been written. Two more ways to fail come after a write: it may have found
nothing to write to, and what it has written may not be found again. What a store has to promise
about these is stated here, and with it every managing call leaves the store as it was if it fails.
-/

namespace RolloutWatch

def Spares {σ α : Type} (s : σ) (outcome : Except Error α × World σ) : Prop :=
  ∀ fault, outcome.1 = .error fault → outcome.2.store = s

section

variable {σ α : Type} {s : σ} {world : World σ}

theorem spares_of_kept {answer : Except Error α} (kept : world.store = s) :
    Spares s (answer, world) :=
  fun _ _ => kept

theorem spares_of_ok {a : α} : Spares s ((.ok a, world) : Except Error α × World σ) := by
  intro fault failed
  cases failed

/-- A write that leaves the store as it is when it finds nothing to write to. -/
def Misses (s : σ) (change : σ → Except Error (Bool × σ)) : Prop :=
  ∀ after, change s = .ok (false, after) → after = s

/-- A service that fails unless its one write finds what it is to be made to. -/
theorem Misses.spares {change : σ → Except Error (Bool × σ)} (world : World σ)
    (misses : Misses world.store change) {a : α} {missing : Error} :
    Spares world.store
      (match change world.store with
        | .error e => (.error e, world)
        | .ok (found, store) => (if found then .ok a else .error missing, { world with store }) :
        Except Error α × World σ) := by
  cases written : change world.store with
  | error e => exact spares_of_kept rfl
  | ok result =>
      obtain ⟨found, after⟩ := result
      cases found with
      | true => exact spares_of_ok
      | false => exact spares_of_kept (misses after written)

end

theorem Action.bind_checked_invalid {σ α : Type} {vs : Violations} (invalid : vs.isEmpty = false)
    (next : Unit → Action σ α) (world : World σ) :
    (Action.ofExcept vs.toResult >>= next) world = (.error (.validation vs), world) := by
  unfold Violations.toResult
  rw [invalid]
  rfl

/-- What a store promises of writes that find nothing, and of reads after writes of checked
definitions that find something. -/
structure Reliable {σ : Type} [Store σ] (s : σ) : Prop where
  health : ∀ id health, Misses s (Store.setDataSourceHealth id health)
  sourceDeletion : ∀ id deletedAt, Misses s (Store.softDeleteDataSource id deletedAt)
  groupUpdate : ∀ id u, Misses s (Store.updateMetricsGroup id u)
  groupDeletion : ∀ id, Misses s (Store.deleteMetricsGroup id)
  metricUpdate : ∀ m, Misses s (Store.updateMetric m)
  metricDeletion : ∀ id, Misses s (Store.deleteMetric id)
  groupFound : ∀ {id u after}, Store.updateMetricsGroup id u s = .ok (true, after) →
    ∃ g, Store.findMetricsGroup id after = .ok (some g)
  metricFound : ∀ {m after}, Store.updateMetric m s = .ok (true, after) →
    ∃ stored, Store.findMetric m.id after = .ok (some stored)

variable {σ : Type} [Store σ] {world : World σ}

/-! ### The services -/

namespace Sources

theorem create_spares (engine : Engine) (input : NewDataSource) :
    Spares world.store (Sources.create engine input world) := by
  rw [create_apply]
  cases input.violations.toResult with
  | error e => exact spares_of_kept rfl
  | ok valid =>
      simp only
      cases Store.insertDataSource (prepare engine input world.supply).1 world.store with
      | error e => exact spares_of_kept rfl
      | ok after => exact spares_of_ok

theorem delete_spares (reliable : Reliable world.store) (id : EntityId) :
    Spares world.store (Sources.delete id world) := by
  rw [delete_apply]
  exact (reliable.sourceDeletion id world.supply.now.1).spares
    { world with supply := world.supply.now.2 }

theorem setHealth_spares (reliable : Reliable world.store) (id : EntityId) (health : Health) :
    Spares world.store (Sources.setHealth id health world) := by
  rw [setHealth_apply]
  exact (reliable.health id health).spares world

end Sources

namespace Groups

theorem create_spares (g : MetricsGroup) : Spares world.store (Groups.create g world) := by
  rw [create_apply]
  cases g.violations.toResult with
  | error e => exact spares_of_kept rfl
  | ok valid =>
      simp only
      cases Store.insertMetricsGroup (prepare g world.supply).1 world.store with
      | error e => exact spares_of_kept rfl
      | ok after => exact spares_of_ok

/-- The group is read back after it has been written, and it is found. -/
theorem update_spares (reliable : Reliable world.store) (id : EntityId) (u : MetricsGroupUpdate) :
    Spares world.store (Groups.update id u world) := by
  rw [update_apply]
  cases u.violations.toResult with
  | error e => exact spares_of_kept rfl
  | ok valid =>
      simp only
      cases written : Store.updateMetricsGroup id u world.store with
      | error e => exact spares_of_kept rfl
      | ok result =>
          obtain ⟨found, after⟩ := result
          cases found with
          | false => exact spares_of_kept (reliable.groupUpdate id u after written)
          | true =>
              obtain ⟨g, read⟩ := reliable.groupFound written
              simp only [find_apply, read]
              exact spares_of_ok

theorem delete_spares (reliable : Reliable world.store) (id : EntityId) :
    Spares world.store (Groups.delete id world) := by
  rw [delete_apply]
  exact (reliable.groupDeletion id).spares world

theorem addMetric_spares (groupId : EntityId) (m : Metric) :
    Spares world.store (Groups.addMetric groupId m world) := by
  rw [addMetric_apply]
  cases m.violations.toResult with
  | error e => exact spares_of_kept rfl
  | ok valid =>
      simp only
      cases Store.findMetricsGroup groupId world.store with
      | error e => exact spares_of_kept rfl
      | ok answer =>
          cases answer with
          | none => exact spares_of_kept rfl
          | some g =>
              simp only
              cases Store.insertMetric
                  (MetricsGroup.adoptMetric g.id g.circleId m world.supply).1 world.store with
              | error e => exact spares_of_kept rfl
              | ok after => exact spares_of_ok

/-- The metric is read back after it has been written, and it is found. -/
theorem updateMetric_spares (reliable : Reliable world.store) (m : Metric) :
    Spares world.store (Groups.updateMetric m world) := by
  rw [updateMetric_apply]
  cases m.violations.toResult with
  | error e => exact spares_of_kept rfl
  | ok valid =>
      simp only
      cases written : Store.updateMetric m world.store with
      | error e => exact spares_of_kept rfl
      | ok result =>
          obtain ⟨found, after⟩ := result
          cases found with
          | false => exact spares_of_kept (reliable.metricUpdate m after written)
          | true =>
              obtain ⟨stored, read⟩ := reliable.metricFound written
              simp only [read]
              exact spares_of_ok

theorem removeMetric_spares (reliable : Reliable world.store) (id : EntityId) :
    Spares world.store (Groups.removeMetric id world) := by
  rw [removeMetric_apply]
  exact (reliable.metricDeletion id).spares world

end Groups

namespace Tracker

variable [LawfulStore σ]

theorem update_spares (e : MetricExecution) : Spares world.store (Tracker.update e world) := by
  have misses : Misses world.store (Store.updateMetricExecution e) :=
    fun _ missed => LawfulStore.missed missed
  rw [update_apply]
  exact misses.spares world

theorem record_spares (policy : TransitionPolicy) (m : Metric) (value : Binary64) :
    Spares world.store (Tracker.record policy m value world) := by
  intro fault failed
  exact record_refused (Prod.ext failed rfl)

end Tracker

/-! ### One turn -/

namespace ServiceCall

/-- The call is one of those that create, change or delete something by name. Evaluations are not
among them, which keep what they have recorded before they fail. -/
def manages : ServiceCall → Bool
  | .createSource _ => true
  | .deleteSource _ => true
  | .setHealth _ _ => true
  | .createGroup _ => true
  | .updateGroup _ _ => true
  | .deleteGroup _ => true
  | .addMetric _ _ => true
  | .updateMetric _ => true
  | .removeMetric _ => true
  | .record _ _ => true
  | .updateExecution _ => true
  | _ => false

def violations : ServiceCall → Violations
  | .createSource input => input.violations
  | .createGroup g => g.violations
  | .updateGroup _ u => u.violations
  | .addMetric _ m => m.violations
  | .updateMetric m => m.violations
  | _ => .none

end ServiceCall

namespace Turn

/-- A managing call that fails leaves a store that keeps its promises as it was. -/
theorem spares [LawfulStore σ] {turn : Turn} {s : σ} (reliable : Reliable s)
    (managed : turn.call.manages = true) :
    Spares s (turn.call.perform turn.engine (turn.world s)) := by
  obtain ⟨call, engine, supply, registry, clock, log⟩ := turn
  cases call with
  | createSource input => exact Sources.create_spares engine input
  | deleteSource id => exact Sources.delete_spares reliable id
  | setHealth id health => exact Sources.setHealth_spares reliable id health
  | createGroup g => exact Groups.create_spares g
  | updateGroup id u => exact Groups.update_spares reliable id u
  | deleteGroup id => exact Groups.delete_spares reliable id
  | addMetric groupId m => exact Groups.addMetric_spares groupId m
  | updateMetric m => exact Groups.updateMetric_spares reliable m
  | removeMetric id => exact Groups.removeMetric_spares reliable id
  | record m value => exact Tracker.record_spares engine.settings.transitionPolicy m value
  | updateExecution e => exact Tracker.update_spares e
  | _ => cases managed

/-- What is to be stored is checked before the store is asked for anything. -/
theorem answer_of_invalid {turn : Turn} (s : σ)
    (invalid : turn.call.violations.isEmpty = false) :
    turn.answer s = .error (.validation turn.call.violations) := by
  obtain ⟨call, engine, supply, registry, clock, log⟩ := turn
  cases call with
  | createSource input => exact congrArg Prod.fst (Action.bind_checked_invalid invalid _ _)
  | createGroup g => exact congrArg Prod.fst (Action.bind_checked_invalid invalid _ _)
  | updateGroup id u => exact congrArg Prod.fst (Action.bind_checked_invalid invalid _ _)
  | addMetric groupId m => exact congrArg Prod.fst (Action.bind_checked_invalid invalid _ _)
  | updateMetric m => exact congrArg Prod.fst (Action.bind_checked_invalid invalid _ _)
  | _ => cases invalid

end Turn

end RolloutWatch

import RolloutWatch.Proofs.Driver.Registry
import RolloutWatch.Proofs.Evaluation.QueryPhase

/-!
What the question of a metric needs before it can be put: the source, the driver and an open
connection. Drivers are loaded on the way, but the registry answers for a kind as it did before,
so that one metric's access does not depend on what has been loaded for the others.
-/

namespace RolloutWatch

namespace Outcome

def ofEntry (entry : Nat × Metric) (answer : Except Error Json.Value) : Outcome :=
  { index := entry.1, metric := entry.2, answer }

theorem entry_ofEntry (entry : Nat × Metric) (answer : Except Error Json.Value) :
    (ofEntry entry answer).entry = entry :=
  rfl

end Outcome

namespace QueryPhase

/-! ### Access to a driver -/

/-- What the question of a metric needs: the driver it is put to, and an open connection. -/
structure Access where
  driver : Driver
  connection : List UInt8

def access (engine : Engine) (findSource : EntityId → Except Error (Option DataSource))
    (registry : DriverRegistry) (m : Metric) : Except Error Access × DriverRegistry :=
  match findSource m.dataSourceId with
  | .error e => (.error e, registry)
  | .ok none => (.error (.notFound .dataSource m.dataSourceId), registry)
  | .ok (some source) =>
      match registry.resolve source.pluginSrc with
      | (.error e, registry) => (.error e, registry)
      | (.ok driver, registry) =>
          match engine.cipher.openConfig source.sealedData with
          | .error e => (.error e, registry)
          | .ok config => (.ok { driver, connection := config.bytes }, registry)

/-- What stays fixed while the tasks of a phase run. What comes of a question may depend on the
task that puts it. -/
structure Frame where
  engine : Engine
  findSource : EntityId → Except Error (Option DataSource)
  ask : Nat → Driver → List UInt8 → List UInt8 → Asking
  limits : Limits

namespace Frame

def begun (frame : Frame) (entry : Nat × Metric) (access : Access) : Begun :=
  limited frame.engine.settings.metricTimeout entry.2 access.driver.kind
    (frame.ask entry.1 access.driver access.connection entry.2.querySpec.toBytes)

def answer (frame : Frame) (registry : DriverRegistry) (entry : Nat × Metric) :
    Except Error Json.Value :=
  match (access frame.engine frame.findSource registry entry.2).1 with
  | .error e => .error e
  | .ok access => (frame.begun entry access).answer

def outcome (frame : Frame) (registry : DriverRegistry) (entry : Nat × Metric) : Outcome :=
  .ofEntry entry (frame.answer registry entry)

theorem answer_of_access {frame : Frame} {registry : DriverRegistry} {entry : Nat × Metric}
    {source : DataSource} {driver : Driver} {config : Json.Value}
    (found : frame.findSource entry.2.dataSourceId = .ok (some source))
    (resolved : (registry.resolve source.pluginSrc).1 = .ok driver)
    (opened : frame.engine.cipher.openConfig source.sealedData = .ok config) :
    frame.answer registry entry =
      (frame.begun entry { driver, connection := config.bytes }).answer := by
  unfold answer access
  rw [found]
  dsimp only
  rcases answered : registry.resolve source.pluginSrc with ⟨answer, after⟩
  rw [answered] at resolved
  cases resolved
  dsimp only
  rw [opened]

end Frame

section

variable (engine : Engine) (findSource : EntityId → Except Error (Option DataSource))

/-- Access depends on the answers of the registry only. -/
theorem access_answer {registry other : DriverRegistry}
    (answers : registry.answer = other.answer) (m : Metric) :
    (access engine findSource registry m).1 = (access engine findSource other m).1 := by
  unfold access
  cases findSource m.dataSourceId with
  | error e => rfl
  | ok found =>
      cases found with
      | none => rfl
      | some source =>
          have same : (registry.resolve source.pluginSrc).1 =
              (other.resolve source.pluginSrc).1 := by
            rw [DriverRegistry.resolve_answer, DriverRegistry.resolve_answer, answers]
          simp only
          rcases resolved : registry.resolve source.pluginSrc with ⟨answer, after⟩
          rcases resolvedOther : other.resolve source.pluginSrc with ⟨otherAnswer, otherAfter⟩
          rw [resolved, resolvedOther] at same
          cases same
          cases answer with
          | error e => rfl
          | ok driver =>
              simp only
              cases engine.cipher.openConfig source.sealedData <;> rfl

theorem access_answers (registry : DriverRegistry) (m : Metric) :
    (access engine findSource registry m).2.answer = registry.answer := by
  unfold access
  cases findSource m.dataSourceId with
  | error e => rfl
  | ok found =>
      cases found with
      | none => rfl
      | some source =>
          have answers := registry.resolve_answers source.pluginSrc
          simp only
          rcases resolved : registry.resolve source.pluginSrc with ⟨answer, after⟩
          rw [resolved] at answers
          cases answer with
          | error e => exact answers
          | ok driver =>
              simp only
              cases engine.cipher.openConfig source.sealedData <;> exact answers

end

end QueryPhase

end RolloutWatch

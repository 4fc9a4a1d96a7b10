import RolloutWatch.Driver.Registry
import RolloutWatch.Proofs.Keyed

/-!
What a registry answers with for a kind, apart from what it loads for it. To resolve a kind loads
the driver that has been answered, and so it changes no answer.
-/

namespace RolloutWatch

def DriverFactory.answer (kind : String) (factory : DriverFactory) : Except Error Driver :=
  match factory.outcome with
  | .error e => .error (.config (.driverNotLoaded kind e))
  | .ok driver => .ok driver

namespace DriverRegistry

/-- What a registry answers with for a kind, apart from what it loads for it. -/
def answer (r : DriverRegistry) (kind : String) : Except Error Driver :=
  match Keyed.get? kind r.loaded with
  | some driver => .ok driver
  | none =>
      match Keyed.get? kind r.factories with
      | none => .error (.driverNotFound kind)
      | some factory => factory.answer kind

theorem load_answer (r : DriverRegistry) (kind : String) (factory : DriverFactory) :
    (r.load kind factory).1 = factory.answer kind := by
  unfold load DriverFactory.answer
  cases factory.outcome <;> rfl

theorem load_factories (r : DriverRegistry) (kind : String) (factory : DriverFactory) :
    (r.load kind factory).2.factories = r.factories := by
  unfold load
  cases factory.outcome <;> cases factory.counted <;> rfl

theorem load_loaded (r : DriverRegistry) (kind : String) (factory : DriverFactory) :
    (r.load kind factory).2.loaded =
      match factory.outcome with
      | .error _ => r.loaded
      | .ok driver => Keyed.put kind driver r.loaded := by
  unfold load
  cases factory.outcome <;> cases factory.counted <;> rfl

theorem resolve_answer (r : DriverRegistry) (kind : String) :
    (r.resolve kind).1 = r.answer kind := by
  unfold resolve answer
  cases Keyed.get? kind r.loaded with
  | some driver => rfl
  | none =>
      cases Keyed.get? kind r.factories with
      | none => rfl
      | some factory => exact load_answer r kind factory

theorem load_answers {r : DriverRegistry} {kind : String} {factory : DriverFactory}
    (absent : Keyed.get? kind r.loaded = none)
    (registered : Keyed.get? kind r.factories = some factory) :
    (r.load kind factory).2.answer = r.answer := by
  funext other
  unfold answer
  rw [load_factories, load_loaded]
  cases built : factory.outcome with
  | error e => rfl
  | ok driver =>
      simp only
      rw [Keyed.get?_put]
      by_cases same : kind = other
      · subst same
        have answered : factory.answer kind = .ok driver := by
          unfold DriverFactory.answer
          rw [built]
        rw [if_pos rfl, absent, registered]
        exact answered.symm
      · rw [if_neg same, Option.none_or]

/-- To resolve a kind changes no answer. -/
theorem resolve_answers (r : DriverRegistry) (kind : String) :
    (r.resolve kind).2.answer = r.answer := by
  unfold resolve
  cases absent : Keyed.get? kind r.loaded with
  | some driver => rfl
  | none =>
      cases registered : Keyed.get? kind r.factories with
      | none => rfl
      | some factory => exact load_answers absent registered

end DriverRegistry

end RolloutWatch

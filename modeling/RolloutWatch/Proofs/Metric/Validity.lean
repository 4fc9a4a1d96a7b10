import RolloutWatch.Error
import RolloutWatch.Metric.Group

/-!
Valid entities. Violations only accumulate, so that none are left at the end if and only if no
rule is broken on the way, and a group is valid if and only if its own rules hold and all its
metrics are valid.
-/

namespace RolloutWatch

namespace Violations

theorem toResult_ok {vs : Violations} {valid : Unit} :
    vs.toResult = .ok valid ↔ vs.isEmpty = true := by
  unfold toResult
  split
  · rename_i empty
    exact ⟨fun _ => empty, fun _ => rfl⟩
  · rename_i found
    exact ⟨nofun, fun empty => absurd empty found⟩

@[simp] theorem isEmpty_none : none.isEmpty = true :=
  rfl

theorem isEmpty_append (vs : Violations) (more : List Violation) :
    Violations.isEmpty { list := vs.list ++ more } = (vs.isEmpty && more.isEmpty) := by
  unfold isEmpty
  cases vs.list <;> rfl

@[simp] theorem isEmpty_check (vs : Violations) (failed : Bool) (field message : String) :
    (vs.check failed field message).isEmpty = (vs.isEmpty && !failed) := by
  cases failed with
  | false => exact (Bool.and_true _).symm
  | true => exact isEmpty_append vs _

@[simp] theorem isEmpty_nest (vs : Violations) (path : String) (inner : Violations) :
    (vs.nest path inner).isEmpty = (vs.isEmpty && inner.isEmpty) := by
  unfold nest
  rw [isEmpty_append, List.isEmpty_map]
  rfl

end Violations

namespace Metric

theorem isEmpty_violations (m : Metric) :
    m.violations.isEmpty =
      (!Blank.isBlank m.nickname && !m.dataSourceId.isNil &&
        !(Blank.isBlank m.metric && Blank.isBlank m.query) && !m.condition.isNone &&
        m.threshold.isFinite) := by
  simp only [violations, Violations.isEmpty_check, Violations.isEmpty_none, Bool.true_and,
    Bool.not_not]

end Metric

namespace MetricsGroup

theorem isEmpty_metricViolations (index : Nat) (ms : List Metric) (vs : Violations) :
    (metricViolations index ms vs).isEmpty =
      (vs.isEmpty && ms.all fun m => m.violations.isEmpty) := by
  induction ms generalizing index vs with
  | nil => exact (Bool.and_true _).symm
  | cons m rest ih =>
      unfold metricViolations
      rw [ih, Violations.isEmpty_nest, List.all_cons, Bool.and_assoc]

theorem isEmpty_violations (g : MetricsGroup) :
    g.violations.isEmpty =
      (!Blank.isBlank g.name && !g.metrics.isEmpty && !g.circleId.isNil &&
        g.metrics.all fun m => m.violations.isEmpty) := by
  simp only [violations, isEmpty_metricViolations, Violations.isEmpty_check,
    Violations.isEmpty_none, Bool.true_and]

structure Titled (g : MetricsGroup) : Prop where
  name : Blank.isBlank g.name = false
  circle : g.circleId.isNil = false

theorem valid_iff {g : MetricsGroup} :
    g.violations.isEmpty = true ↔
      g.Titled ∧ g.metrics ≠ [] ∧ ∀ m ∈ g.metrics, m.violations.isEmpty = true := by
  rw [isEmpty_violations]
  simp only [Bool.and_eq_true, Bool.not_eq_true', List.all_eq_true, List.isEmpty_eq_false_iff]
  constructor
  · rintro ⟨⟨⟨name, nonempty⟩, circle⟩, metrics⟩
    exact ⟨⟨name, circle⟩, nonempty, metrics⟩
  · rintro ⟨titled, nonempty, metrics⟩
    exact ⟨⟨⟨titled.name, nonempty⟩, titled.circle⟩, metrics⟩

theorem finite_of_valid {g : MetricsGroup} {valid : Unit}
    (checked : g.violations.toResult = .ok valid) {m : Metric} (member : m ∈ g.metrics) :
    m.threshold.isFinite = true := by
  rw [Violations.toResult_ok, isEmpty_violations, Bool.and_eq_true, List.all_eq_true] at checked
  have metric := checked.2 m member
  rw [Metric.isEmpty_violations, Bool.and_eq_true] at metric
  exact metric.2

end MetricsGroup

theorem MetricsGroupUpdate.valid_iff {u : MetricsGroupUpdate} :
    u.violations.isEmpty = true ↔
      Blank.isBlank u.name = false ∧ u.circleId.isNil = false := by
  simp only [violations, Violations.isEmpty_check, Violations.isEmpty_none, Bool.true_and,
    Bool.and_eq_true, Bool.not_eq_true']

end RolloutWatch

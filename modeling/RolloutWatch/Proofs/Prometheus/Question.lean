import RolloutWatch.Driver.Basic
import RolloutWatch.Proofs.Memory.Roster
import RolloutWatch.Proofs.Metric.QuerySpec
import RolloutWatch.Proofs.Prometheus.Expression
import RolloutWatch.Proofs.Prometheus.Response
import RolloutWatch.Proofs.Relational.Roster
import RolloutWatch.Proofs.Text.Blank

/-!
The question about a metric on its way to the backend. The driver gets the question that the
metric asks, and what validation takes for a query or for a name is an expression for the driver:
both of them mean the same white space. So the question about a valid metric is never at fault.
-/

namespace RolloutWatch

namespace Prometheus

theorem metricExpression_nonblank {spec : QuerySpec}
    (named : Blank.isBlank spec.metric = false) :
    (metricExpression spec).all Blank.isSpace = false := by
  have selected : (selector (Blank.trim spec.metric.toList) spec.filters).all Blank.isSpace =
      false := by
    rw [selector_eq, List.all_append, Blank.all_trim]
    change (Blank.isBlank spec.metric && _) = false
    rw [named, Bool.false_and]
  by_cases single : spec.groupBy = []
  · unfold metricExpression
    rw [if_pos single]
    exact selected
  · rw [metricExpression_of_groupBy single, List.all_append, List.all_cons]
    exact Bool.false_and _

theorem expression_ok_iff {spec : QuerySpec} :
    (∃ text, expression spec = .ok text ∧ Blank.isBlank text = false) ↔
      ¬(Blank.isBlank spec.metric = true ∧ Blank.isBlank spec.query = true) := by
  cases blank : Blank.isBlank spec.query with
  | false =>
      have verbatim : expression spec = .ok spec.query := by
        unfold expression
        rw [blank]
        rfl
      exact ⟨fun _ none => Bool.false_ne_true none.2, fun _ => ⟨_, verbatim, blank⟩⟩
  | true =>
      rw [expression_of_blank blank]
      cases unnamed : Blank.isBlank spec.metric with
      | true =>
          rw [if_pos (Blank.trim_eq_nil_iff.mpr unnamed)]
          refine ⟨?_, fun asked => absurd ⟨rfl, rfl⟩ asked⟩
          rintro ⟨_, built, -⟩
          cases built
      | false =>
          have named : Blank.trim spec.metric.toList ≠ [] := fun none =>
            Bool.false_ne_true (unnamed.symm.trans (Blank.trim_eq_nil_iff.mp none))
          rw [if_neg named]
          refine ⟨fun _ none => Bool.false_ne_true none.1, fun _ => ⟨_, rfl, ?_⟩⟩
          rw [Blank.isBlank_ofList]
          exact metricExpression_nonblank unnamed

end Prometheus

namespace Metric

structure Askable (m : Metric) : Prop where
  expression : ∃ text, Prometheus.expression m.querySpec = .ok text ∧ Blank.isBlank text = false
  answer : ∀ network timeout connection e,
    ((Driver.prometheus timeout).ask network connection m.querySpec.toBytes).answer = .error e →
      e.kind ≠ .spec

theorem askable_of_valid {m : Metric} (valid : m.violations.isEmpty = true) : m.Askable := by
  have asked : ¬(Blank.isBlank m.querySpec.metric = true ∧
      Blank.isBlank m.querySpec.query = true) := by
    rw [isEmpty_violations] at valid
    simp only [Bool.and_eq_true, Bool.not_eq_true', Bool.and_eq_false_iff] at valid
    rintro ⟨metric, query⟩
    rcases valid.1.1.2 with named | posed
    · exact Bool.false_ne_true (named.symm.trans metric)
    · exact Bool.false_ne_true (posed.symm.trans query)
  obtain ⟨text, built, nonblank⟩ := Prometheus.expression_ok_iff.mpr asked
  exact
    { expression := ⟨text, built, nonblank⟩
      answer := fun _ _ _ _ => Prometheus.kind_ne_spec m.querySpec.ofBytes_toBytes built }

/-- Every question gets to the driver as it is, and the question about a valid metric is never at
fault. So it is not for any metric in the groups that the services return. -/
theorem question_reaches_backend :
    (∀ m : Metric, QuerySpec.ofBytes? m.querySpec.toBytes = some m.querySpec) ∧
      (∀ m : Metric, m.violations.isEmpty = true → m.Askable) ∧
      (∀ (turns : List Turn) (g : MetricsGroup),
        Groups.Returned g (Turn.run turns MemoryStore.empty) → ∀ m ∈ g.metrics, m.Askable) ∧
      ∀ (turns : List Turn) (g : MetricsGroup),
        Groups.Returned g (Turn.run turns (RelationalStore.onDatabase .empty)) →
          ∀ m ∈ g.metrics, m.Askable := by
  refine ⟨fun m => m.querySpec.ofBytes_toBytes, fun m => askable_of_valid, ?_, ?_⟩
  · intro turns g returned m member
    obtain ⟨-, valid, -⟩ := MemoryStore.run_partsValid turns g returned
    exact askable_of_valid (valid m member)
  · intro turns g returned m member
    obtain ⟨-, valid, -⟩ := RelationalStore.run_partsValid turns g returned
    exact askable_of_valid (valid m member)

def quoting : Metric :=
  { Canary.metric 3 with
    query := "\t\u2003"
    metric := "\u00a0up\n"
    filters := [⟨"job", .notMatching, "\"\\\x7b,\x7d\u0000"⟩, ⟨"", .equal, "ß水"⟩]
    groupBy := ["pod", "", ","] }

def quotingTurns : List Turn :=
  [Canary.turn (.createGroup { Canary.group with metrics := [quoting] }) 100]

private theorem exists_member {σ : Type} [Store σ] {s : σ} {i : EntityId}
    (found : (Groups.find i ((Canary.turn .listGroups 0).world s)).1.toOption.map
      (·.metrics.isEmpty) = some false) :
    ∃ g, Groups.Returned g s ∧ ∃ m, m ∈ g.metrics := by
  obtain ⟨g, answered, nonempty⟩ := Option.map_eq_some_iff.mp found
  cases answer : Groups.find i ((Canary.turn .listGroups 0).world s) with
  | mk result after =>
      rw [answer] at answered
      cases result with
      | error e => cases answered
      | ok h =>
          obtain rfl := Option.some.inj answered
          exact ⟨h, Groups.returned_of_found answer,
            List.exists_mem_of_ne_nil _ (List.isEmpty_eq_false_iff.mp nonempty)⟩

theorem quoting_reaches_backend :
    quoting.violations.isEmpty = true ∧ quoting.Askable ∧
      (∃ g, Groups.Returned g (Turn.run quotingTurns MemoryStore.empty) ∧
        ∃ m ∈ g.metrics, m.Askable) ∧
      ∃ g, Groups.Returned g (Turn.run quotingTurns (RelationalStore.onDatabase .empty)) ∧
        ∃ m ∈ g.metrics, m.Askable := by
  obtain ⟨-, askable, inMemory, inDatabase⟩ := question_reaches_backend
  have valid : quoting.violations.isEmpty = true := by decide +kernel
  refine ⟨valid, askable quoting valid, ?_, ?_⟩
  · obtain ⟨g, returned, m, member⟩ := exists_member (i := Canary.group.id)
      (s := Turn.run quotingTurns MemoryStore.empty) (by decide +kernel)
    exact ⟨g, returned, m, member, inMemory quotingTurns g returned m member⟩
  · obtain ⟨g, returned, m, member⟩ := exists_member (i := Canary.group.id)
      (s := Turn.run quotingTurns (RelationalStore.onDatabase .empty)) (by decide +kernel)
    exact ⟨g, returned, m, member, inDatabase quotingTurns g returned m member⟩

end Metric

end RolloutWatch

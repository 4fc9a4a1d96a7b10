import RolloutWatch.Proofs.Metric.Validity
import RolloutWatch.Proofs.Service.Call
import RolloutWatch.Proofs.Service.Equations

/-!
The groups that the services return from a store, and what holds of a store at every moment of
a run. What keeps it is that something never happens on the way.
-/

namespace RolloutWatch

variable {σ : Type} [Store σ]

namespace Groups

/-- The group is found by its identifier or listed among the others. -/
def Returned (g : MetricsGroup) (s : σ) : Prop :=
  (∃ (id : EntityId) (world after : World σ), world.store = s ∧
    Groups.find id world = (.ok g, after)) ∨
  ∃ (gs : List MetricsGroup) (world after : World σ), world.store = s ∧
    Groups.findAll world = (.ok gs, after) ∧ g ∈ gs

theorem returned_cases {g : MetricsGroup} {s : σ} (returned : Returned g s) :
    (∃ id, Store.findMetricsGroup id s = .ok (some g)) ∨
      ∃ gs, Store.listMetricsGroups s = .ok gs ∧ g ∈ gs := by
  rcases returned with ⟨id, world, after, rfl, found⟩ | ⟨gs, world, after, rfl, listed, member⟩
  · rw [find_apply] at found
    have answer := congrArg Prod.fst found
    refine .inl ⟨id, ?_⟩
    cases read : Store.findMetricsGroup id world.store with
    | error e =>
        rw [read] at answer
        cases answer
    | ok result =>
        rw [read] at answer
        cases result with
        | none => cases answer
        | some h =>
            cases answer
            rfl
  · exact .inr ⟨gs, congrArg Prod.fst listed, member⟩

theorem returned_of_found {g : MetricsGroup} {id : EntityId} {world after : World σ}
    (found : Groups.find id world = (.ok g, after)) : Returned g world.store :=
  .inl ⟨id, world, after, rfl, found⟩

theorem returned_of_listed {g : MetricsGroup} {gs : List MetricsGroup} (world : World σ)
    (listed : Store.listMetricsGroups world.store = .ok gs) (member : g ∈ gs) :
    Returned g world.store :=
  .inr ⟨gs, world, world, rfl, Prod.ext listed rfl, member⟩

/-- Whatever group is returned is valid. -/
def AllValid (s : σ) : Prop :=
  ∀ g, Returned g s → g.violations.isEmpty = true

/-- Whatever group is returned has a name and a circle, and valid metrics if it has any. -/
def PartsValid (s : σ) : Prop :=
  ∀ g, Returned g s → g.Titled ∧ (∀ m ∈ g.metrics, m.violations.isEmpty = true) ∧
    (g.violations.isEmpty = true ↔ g.metrics ≠ [])

theorem partsValid_of_parts {s : σ}
    (parts : ∀ g, Returned g s → g.Titled ∧ ∀ m ∈ g.metrics, m.violations.isEmpty = true) :
    PartsValid s := by
  intro g returned
  obtain ⟨titled, metrics⟩ := parts g returned
  refine ⟨titled, metrics, ?_⟩
  rw [MetricsGroup.valid_iff]
  exact ⟨fun valid => valid.2.1, fun nonempty => ⟨titled, nonempty, metrics⟩⟩

end Groups

namespace Turn

def Always (holds : σ → Prop) : List Turn → σ → Prop
  | [], s => holds s
  | turn :: rest, s => holds s ∧ Always holds rest (turn.next s)

def Never (happens : Turn → σ → Prop) : List Turn → σ → Prop
  | [], _ => True
  | turn :: rest, s => ¬happens turn s ∧ Never happens rest (turn.next s)

variable {invariant holds : σ → Prop} {happens : Turn → σ → Prop}

theorem Always.start {turns : List Turn} {s : σ} (always : Always holds turns s) : holds s := by
  cases turns with
  | nil => exact always
  | cons turn rest => exact always.1

theorem Always.finish {turns : List Turn} {s : σ} (always : Always holds turns s) :
    holds (run turns s) := by
  induction turns generalizing s with
  | nil => exact always
  | cons turn rest ih => exact ih always.2

/-- What follows from an invariant holds at every moment. -/
theorem always_of_invariant
    (keeps : ∀ (turn : Turn) (s : σ), invariant s → invariant (turn.next s))
    (enough : ∀ s, invariant s → holds s) {turns : List Turn} {s : σ} (start : invariant s) :
    Always holds turns s := by
  induction turns generalizing s with
  | nil => exact enough s start
  | cons turn rest ih => exact ⟨enough s start, ih (keeps turn s start)⟩

/-- An invariant that only one kind of turn breaks carries a property through a run without
such turns. -/
theorem always_of_never
    (keeps : ∀ (turn : Turn) (s : σ), invariant s → ¬happens turn s → invariant (turn.next s))
    (enough : ∀ s, invariant s → holds s) {turns : List Turn} {s : σ} (start : invariant s)
    (never : Never happens turns s) : Always holds turns s := by
  induction turns generalizing s with
  | nil => exact enough s start
  | cons turn rest ih =>
      exact ⟨enough s start, ih (keeps turn s start never.1) never.2⟩

/-- If such a turn breaks the property too, then the property holds only without one. -/
theorem never_of_always
    (keeps : ∀ (turn : Turn) (s : σ), invariant s → ¬happens turn s → invariant (turn.next s))
    (breaks : ∀ (turn : Turn) (s : σ), invariant s → happens turn s → ¬holds (turn.next s))
    {turns : List Turn} {s : σ} (start : invariant s) (always : Always holds turns s) :
    Never happens turns s := by
  induction turns generalizing s with
  | nil => trivial
  | cons turn rest ih =>
      have spared : ¬happens turn s :=
        fun happened => breaks turn s start happened always.2.start
      exact ⟨spared, ih (keeps turn s start spared) always.2⟩

end Turn

end RolloutWatch

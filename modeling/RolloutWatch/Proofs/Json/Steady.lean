import RolloutWatch.Metric.Basic
import RolloutWatch.Proofs.Json.Entities
import RolloutWatch.Proofs.Json.Reads

/-!
Readers that take nothing from the supply. What such a reader makes of a tree it makes of it
again, whatever has been taken from the supply in the meantime. Among the fields of metrics and
groups these are all but the metrics themselves.
-/

namespace RolloutWatch

namespace Json.Decoder

variable {α β : Type}

/-- The step leaves every supply as it is, and it succeeds with one thing only. -/
def SteadyStep (step : StateT Supply Option α) : Prop :=
  ∀ (supply after : Supply) (a : α), step supply = some (a, after) →
    ∀ other, step other = some (a, other)

/-- What the reader makes of a tree once, it reads it as always. -/
def Steady (read : Decoder α) : Prop :=
  ∀ levels tree, SteadyStep (read levels tree)

theorem Steady.reads {read : Decoder α} (steady : Steady read) {levels : Nat} {tree : Tree}
    {supply after : Supply} {a : α} (once : read levels tree supply = some (a, after)) :
    Reads read levels tree a :=
  steady levels tree _ _ _ once

theorem bind_of_taken {first : StateT Supply Option α} {next : α → StateT Supply Option β}
    {supply : Supply} {taken : α × Supply} (read : first supply = some taken) :
    (first >>= next) supply = next taken.1 taken.2 :=
  bind_of_some read

theorem freshId_apply (supply : Supply) : freshId supply = some supply.freshId :=
  rfl

theorem now_apply (supply : Supply) : now supply = some supply.now :=
  rfl

theorem steadyStep_option (found : Option α) :
    SteadyStep (found : StateT Supply Option α) := by
  intro supply after a once other
  cases found with
  | none => cases once
  | some b =>
      cases once
      rfl

theorem steadyStep_pure (a : α) : SteadyStep (pure a : StateT Supply Option α) :=
  steadyStep_option (some a)

theorem steadyStep_failure : SteadyStep (failure : StateT Supply Option α) :=
  steadyStep_option none

theorem SteadyStep.bind {first : StateT Supply Option α} {next : α → StateT Supply Option β}
    (steady : SteadyStep first) (later : ∀ a, SteadyStep (next a)) :
    SteadyStep (first >>= next) := by
  intro supply after b once other
  obtain ⟨a, between, taken, done⟩ := bind_eq_some_iff.mp once
  rw [bind_of_some (steady _ _ _ taken other)]
  exact later a _ _ _ done other

/-! ### Readers -/

theorem steady_leaf (read? : Tree → Option α) : Steady (leaf read?) :=
  fun _ tree => steadyStep_option (read? tree)

theorem steady_parsed (parse? : String → Option α) : Steady (parsed parse?) :=
  steady_leaf _

theorem text_steady : Steady text :=
  steady_leaf text?

theorem binary64_steady : Steady binary64 :=
  steady_leaf binary64?

theorem steady_named (parse? : String → Option α) : Steady (named parse?) := by
  intro levels tree
  unfold named
  split
  · exact steadyStep_option _
  · split
    · exact steadyStep_failure
    · exact steadyStep_option _
  · exact steadyStep_failure

theorem steady_nullable {read : Decoder α} (steady : Steady read) : Steady (nullable read) := by
  intro levels tree
  unfold nullable
  split
  · exact steadyStep_pure none
  · exact (steady levels _).bind fun a => steadyStep_pure (some a)

theorem steadyStep_items {read : Decoder α} (steady : Steady read) (levels : Nat)
    (trees : List Tree) : SteadyStep (items read levels trees) := by
  induction trees with
  | nil => exact steadyStep_pure []
  | cons tree rest ih =>
      exact (steady levels tree).bind fun first =>
        ih.bind fun more => steadyStep_pure (first :: more)

theorem steady_list {read : Decoder α} (steady : Steady read) : Steady (list read) := by
  intro levels tree
  unfold list
  split
  · split
    · exact steadyStep_failure
    · exact steadyStep_items steady _ _
  · exact steadyStep_failure

theorem steady_entity {names : List String} {build : Fields → StateT Supply Option α}
    (steady : ∀ fields, SteadyStep (build fields)) : Steady (entity names build) := by
  intro levels tree
  unfold entity
  split
  · exact steady _
  · exact steadyStep_failure

end Json.Decoder

namespace Json.Fields

open Decoder

variable {α : Type}

theorem steadyStep_required (f : Fields) (name : String) {read : Decoder α}
    (steady : Steady read) : SteadyStep (f.required name read) := by
  unfold required
  split
  · exact steady _ _
  · exact steadyStep_failure

theorem steadyStep_orDefault (f : Fields) (name : String) {read : Decoder α}
    (steady : Steady read) (absent : α) : SteadyStep (f.orDefault name read absent) := by
  unfold orDefault orElse
  split
  · exact steady _ _
  · exact steadyStep_pure absent

end Json.Fields

/-! ### Entities inside a metric -/

open Json.Decoder

theorem EntityId.decoder_steady : Steady EntityId.decoder :=
  steady_parsed EntityId.ofString?

theorem Instant.decoder_steady : Steady Instant.decoder :=
  steady_parsed _

theorem MetricFilter.decoder_steady : Steady MetricFilter.decoder :=
  steady_entity fun fields =>
    (fields.steadyStep_required _ text_steady).bind fun _ =>
      (fields.steadyStep_orDefault _ (steady_named _) _).bind fun _ =>
        (fields.steadyStep_required _ text_steady).bind fun _ => steadyStep_pure _

theorem MetricExecution.decoder_steady : Steady MetricExecution.decoder :=
  steady_entity fun fields =>
    (fields.steadyStep_required _ EntityId.decoder_steady).bind fun _ =>
      (fields.steadyStep_required _ EntityId.decoder_steady).bind fun _ =>
        (fields.steadyStep_required _ binary64_steady).bind fun _ =>
          (fields.steadyStep_required _ (steady_named _)).bind fun _ =>
            (fields.steadyStep_required _ Instant.decoder_steady).bind fun _ => steadyStep_pure _

theorem Metric.lenientCondition_steady : Steady Metric.lenientCondition := fun levels tree =>
  (steady_nullable text_steady levels tree).bind fun _ => steadyStep_pure _

end RolloutWatch

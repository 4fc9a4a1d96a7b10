import RolloutWatch.Proofs.Memory.Refusals
import RolloutWatch.Proofs.Relational.Refusals

/-!
A managing call that fails has not happened as far as the store is concerned, at whichever of its
metrics an insert is refused and whatever a deletion or a change fails to find.
-/

namespace RolloutWatch

/-- A managing call that fails leaves either store as it was, open or closed. What is invalid is
refused with its violations, and for that the store need not even be open. -/
theorem failed_call_keeps_store (turn : Turn) :
    (turn.call.manages = true →
      (∀ (s : MemoryStore) (fault : Error), turn.answer s = .error fault → turn.next s = s) ∧
        ∀ (s : RelationalStore) (fault : Error), s.Reachable → s.database.InCommonYears →
          turn.answer s = .error fault → turn.next s = s) ∧
      (turn.call.violations.isEmpty = false →
        (∀ s : MemoryStore, turn.answer s = .error (.validation turn.call.violations)) ∧
          ∀ s : RelationalStore, turn.answer s = .error (.validation turn.call.violations)) := by
  constructor
  · intro managed
    constructor
    · intro s fault failed
      exact Turn.spares s.reliable managed fault failed
    · intro s fault reachable common failed
      exact Turn.spares (reachable.reliable common) managed fault failed
  · intro invalid
    exact ⟨fun s => Turn.answer_of_invalid s invalid, fun s => Turn.answer_of_invalid s invalid⟩

/-! ### Canaries -/

/-- A group of three metrics, of which the second one draws the identifier that the metric of the
canary has drawn before it. -/
def Canary.takesAgain : Turn :=
  Canary.turn (.createGroup
    { Canary.group with
      id := .ofNat 8
      metrics := [Canary.metric 3, Canary.metric 6, Canary.metric 7] }) 99

def Canary.blanksName : Turn :=
  Canary.turn (.updateGroup Canary.group.id { name := " ", circleId := .ofNat 4 }) 300

theorem Turn.exists_fault {σ : Type} [Store σ] {turn : Turn} {s : σ}
    (fails : (turn.answer s).isOk = false) : ∃ fault, turn.answer s = .error fault := by
  cases answered : turn.answer s with
  | error fault => exact ⟨fault, rfl⟩
  | ok a =>
      rw [answered] at fails
      cases fails

theorem taken_canary_keeps_store :
    (∃ (s : MemoryStore) (fault : Error), s.metrics ≠ [] ∧
        Canary.takesAgain.answer s = .error fault ∧ Canary.takesAgain.next s = s) ∧
      (∃ (s : RelationalStore) (fault : Error), s.database.metrics ≠ [] ∧
        Canary.takesAgain.answer s = .error fault ∧ Canary.takesAgain.next s = s) ∧
      Canary.blanksName.answer MemoryStore.empty.close =
        .error (.validation Canary.blanksName.call.violations) := by
  obtain ⟨keeps, -⟩ := failed_call_keeps_store Canary.takesAgain
  obtain ⟨inMemory, inDatabase⟩ := keeps rfl
  refine ⟨?_, ?_, ?_⟩
  · let s := (Canary.turn (.createGroup Canary.group) 100).next MemoryStore.empty
    have fails : (Canary.takesAgain.answer s).isOk = false := by decide +kernel
    obtain ⟨fault, failed⟩ := Turn.exists_fault fails
    exact ⟨s, fault, by decide +kernel, failed, inMemory s fault failed⟩
  · let s := (Canary.turn (.createGroup Canary.group) 100).next (RelationalStore.onDatabase .empty)
    have fails : (Canary.takesAgain.answer s).isOk = false := by decide +kernel
    obtain ⟨fault, failed⟩ := Turn.exists_fault fails
    have common : s.database.InCommonYears := by
      apply Database.inCommonYears_of_moment .epoch <;> decide +kernel
    exact ⟨s, fault, by decide +kernel, failed, inDatabase s fault (.next _ .created) common failed⟩
  · obtain ⟨-, refuses⟩ := failed_call_keeps_store Canary.blanksName
    exact (refuses (by decide +kernel)).1 MemoryStore.empty.close

end RolloutWatch

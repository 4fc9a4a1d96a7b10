import RolloutWatch.Proofs.Memory.Roster
import RolloutWatch.Proofs.Relational.Roster

/-!
Whether stored groups stay valid. Groups and metrics are checked when they come to be stored and
when they are changed, and so every part of a stored group stays valid. The services do not look
at the group when one of its metrics is removed, and so a group can lose its only one.
-/

namespace RolloutWatch.Groups

/-- Whatever the services do to an empty store, the groups that they return have valid parts, so
that these are valid exactly if they have metrics. In memory all groups that are returned are
valid at every moment exactly if no turn removes the only metric of a group. In a database they
are if no turn does; a turn that does may do it to a group that cannot be read. -/
theorem returned_groups_valid (turns : List Turn) :
    PartsValid (Turn.run turns MemoryStore.empty) ∧
      (Turn.Always AllValid turns MemoryStore.empty ↔
        Turn.Never MemoryStore.RemovesOnly turns MemoryStore.empty) ∧
      PartsValid (Turn.run turns (RelationalStore.onDatabase .empty)) ∧
      (Turn.Never RelationalStore.RemovesOnly turns (RelationalStore.onDatabase .empty) →
        Turn.Always AllValid turns (RelationalStore.onDatabase .empty)) := by
  have inMemory := MemoryStore.empty_complete
  have inDatabase := RelationalStore.created_complete
  refine ⟨?_, ⟨?_, ?_⟩, ?_, ?_⟩
  · exact MemoryStore.run_partsValid turns
  · exact Turn.never_of_always (fun _ _ complete => complete.next)
      (fun _ _ complete => complete.not_allValid) inMemory
  · exact Turn.always_of_never (fun _ _ complete => complete.next)
      (fun _ complete => complete.allValid) inMemory
  · exact RelationalStore.run_partsValid turns
  · exact Turn.always_of_never (fun _ _ complete => complete.next)
      (fun _ complete => complete.allValid) inDatabase

def trimmed : List Turn :=
  Canary.turns ++ [Canary.turn (.removeMetric (.ofNat 3)) 300]

private theorem exists_valid {σ : Type} [Store σ] {s : σ} {i : EntityId}
    (found : (Groups.find i ((Canary.turn .listGroups 0).world s)).1.isOk = true)
    (valid : AllValid s) : ∃ g, Returned g s ∧ g.violations.isEmpty = true := by
  obtain ⟨g, after, answer⟩ := Action.exists_ok found
  exact ⟨g, returned_of_found answer, valid g (returned_of_found answer)⟩

theorem trimmed_canary_valid :
    Turn.Never MemoryStore.RemovesOnly trimmed MemoryStore.empty ∧
      Turn.Never RelationalStore.RemovesOnly trimmed (RelationalStore.onDatabase .empty) ∧
      (∃ g, Returned g (Turn.run trimmed MemoryStore.empty) ∧ g.violations.isEmpty = true) ∧
      ∃ g, Returned g (Turn.run trimmed (RelationalStore.onDatabase .empty)) ∧
        g.violations.isEmpty = true := by
  have spared : Turn.Never MemoryStore.RemovesOnly trimmed MemoryStore.empty := by
    refine ⟨?_, ?_, ?_, trivial⟩
    · rintro ⟨id, ⟨called, -⟩, -⟩
      cases called
    · rintro ⟨id, ⟨called, -⟩, -⟩
      cases called
    · rintro ⟨id, ⟨called, -⟩, only⟩
      cases called
      revert only
      decide +kernel
  have sparedRows :
      Turn.Never RelationalStore.RemovesOnly trimmed (RelationalStore.onDatabase .empty) := by
    refine ⟨?_, ?_, ?_, trivial⟩
    · rintro ⟨key, ⟨id, -, called, -⟩, -⟩
      cases called
    · rintro ⟨key, ⟨id, -, called, -⟩, -⟩
      cases called
    · rintro ⟨key, ⟨id, rfl, called, -⟩, only⟩
      cases called
      revert only
      decide +kernel
  obtain ⟨-, always_iff, -, always⟩ := returned_groups_valid trimmed
  refine ⟨spared, sparedRows, ?_, ?_⟩
  · exact exists_valid (i := Canary.group.id) (by decide +kernel)
      (always_iff.mpr spared).finish
  · exact exists_valid (i := Canary.group.id) (by decide +kernel) (always sparedRows).finish

/-- A canary loses the metric that it has been created with. -/
def emptied : List Turn :=
  [Canary.turn (.createGroup Canary.group) 100, Canary.turn (.removeMetric (.ofNat 100)) 200]

private theorem not_allValid_of_found {σ : Type} [Store σ] {s : σ} {i : EntityId}
    {g : MetricsGroup}
    (found : (Groups.find i ((Canary.turn .listGroups 0).world s)).1 = .ok g)
    (invalid : g.violations.isEmpty = false) : ¬AllValid s := by
  intro valid
  have returned : Returned g s := returned_of_found (Prod.ext found rfl)
  rw [valid g returned] at invalid
  cases invalid

/-- The group is found as before but for its metrics. -/
theorem emptied_canary_not_valid :
    ¬AllValid (Turn.run emptied MemoryStore.empty) ∧
      ¬AllValid (Turn.run emptied (RelationalStore.onDatabase .empty)) := by
  have invalid : { Canary.group with metrics := [] }.violations.isEmpty = false := by
    decide +kernel
  constructor
  · exact not_allValid_of_found (i := Canary.group.id) (by decide +kernel) invalid
  · exact not_allValid_of_found (i := Canary.group.id) (by decide +kernel) invalid

end RolloutWatch.Groups

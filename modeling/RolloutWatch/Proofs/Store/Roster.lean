import RolloutWatch.Proofs.Store.Rows

/-!
Groups and their metrics, in whatever kind of rows a store keeps them. The rows that come to be
stored have been checked one by one, so that every stored row is in order by itself. That every
group has a metric is another matter: it takes that no metric goes which is the only one of its
group.
-/

namespace RolloutWatch

/-- What is read off the rows of groups and of metrics, and when a row is in order by itself. -/
structure RowKinds (γ μ κ : Type) where
  groupKey : γ → κ
  metricKey : μ → κ
  owner : μ → κ
  titled : γ → Prop
  valid : μ → Prop

structure Roster (γ μ : Type) where
  groups : List γ
  metrics : List μ

namespace Roster

variable {γ μ κ : Type} {kinds : RowKinds γ μ κ} {removable : κ → Prop} {r after : Roster γ μ}

structure Sound (kinds : RowKinds γ μ κ) (r : Roster γ μ) : Prop where
  groups : ∀ g ∈ r.groups, kinds.titled g
  metrics : ∀ m ∈ r.metrics, kinds.valid m

def Populated (kinds : RowKinds γ μ κ) (r : Roster γ μ) : Prop :=
  ∀ key ∈ r.groups.map kinds.groupKey, key ∈ r.metrics.map kinds.owner

/-- The metric is the only one of some group. -/
def Only [DecidableEq κ] (kinds : RowKinds γ μ κ) (r : Roster γ μ) (key : κ) : Prop :=
  ∃ g ∈ r.groups,
    (r.metrics.filter fun m => kinds.owner m = kinds.groupKey g).map kinds.metricKey = [key]

instance [DecidableEq κ] (kinds : RowKinds γ μ κ) (r : Roster γ μ) (key : κ) :
    Decidable (Only kinds r key) :=
  inferInstanceAs (Decidable (∃ g ∈ r.groups, _ = _))

/-- What a turn can do to the groups and the metrics: add rows that are in order, change rows in
an orderly way, or remove a group with its metrics, or a metric. -/
inductive Step (kinds : RowKinds γ μ κ) (removable : κ → Prop) (r : Roster γ μ) :
    Roster γ μ → Prop where
  | kept : Step kinds removable r r
  | groupAdded (g : γ) (ms : List μ) (titled : kinds.titled g) (valid : ∀ m ∈ ms, kinds.valid m)
      (owned : ∀ m ∈ ms, kinds.owner m = kinds.groupKey g) (nonempty : ms ≠ []) :
      Step kinds removable r { groups := r.groups ++ [g], metrics := r.metrics ++ ms }
  | metricAdded (m : μ) (valid : kinds.valid m) :
      Step kinds removable r { r with metrics := r.metrics ++ [m] }
  | groupUpdated (chosen : γ → Bool) (change : γ → γ)
      (key : ∀ g, kinds.groupKey (change g) = kinds.groupKey g)
      (titled : ∀ g, kinds.titled g → kinds.titled (change g)) :
      Step kinds removable r { r with groups := (Store.updateFirst chosen change r.groups).2 }
  | metricUpdated (chosen : μ → Bool) (change : μ → μ)
      (owner : ∀ m, kinds.owner (change m) = kinds.owner m)
      (valid : ∀ m, kinds.valid m → kinds.valid (change m)) :
      Step kinds removable r { r with metrics := (Store.updateFirst chosen change r.metrics).2 }
  | groupRemoved (key : κ) {after : Roster γ μ}
      (groups : ∀ g, g ∈ after.groups ↔ g ∈ r.groups ∧ kinds.groupKey g ≠ key)
      (metrics : ∀ m, m ∈ after.metrics ↔ m ∈ r.metrics ∧ kinds.owner m ≠ key) :
      Step kinds removable r after
  | metricRemoved (key : κ) (allowed : removable key) {after : Roster γ μ}
      (groups : after.groups = r.groups)
      (metrics : ∀ m, m ∈ after.metrics ↔ m ∈ r.metrics ∧ kinds.metricKey m ≠ key) :
      Step kinds removable r after

theorem sound_nil : Sound kinds { groups := [], metrics := [] } :=
  { groups := fun _ member => absurd member List.not_mem_nil
    metrics := fun _ member => absurd member List.not_mem_nil }

theorem populated_nil : Populated kinds { groups := [], metrics := [] } :=
  fun _ member => absurd member List.not_mem_nil

theorem Sound.step (sound : Sound kinds r) (step : Step kinds removable r after) :
    Sound kinds after := by
  cases step with
  | kept => exact sound
  | groupAdded g ms titled valid owned nonempty =>
      exact
        { groups := List.forall_mem_append.mpr
            ⟨sound.groups, List.forall_mem_singleton.mpr titled⟩
          metrics := List.forall_mem_append.mpr ⟨sound.metrics, valid⟩ }
  | metricAdded m valid =>
      exact
        { sound with
          metrics := List.forall_mem_append.mpr
            ⟨sound.metrics, List.forall_mem_singleton.mpr valid⟩ }
  | groupUpdated chosen change key titled =>
      exact { sound with groups := Store.forall_updateFirst sound.groups titled }
  | metricUpdated chosen change owner valid =>
      exact { sound with metrics := Store.forall_updateFirst sound.metrics valid }
  | groupRemoved key groups metrics =>
      exact
        { groups := fun g member => sound.groups g ((groups g).mp member).1
          metrics := fun m member => sound.metrics m ((metrics m).mp member).1 }
  | metricRemoved key allowed groups metrics =>
      exact
        { groups := groups ▸ sound.groups
          metrics := fun m member => sound.metrics m ((metrics m).mp member).1 }

private theorem singleton_of_all {α : Type} {a : α} {items : List α} (distinct : items.Nodup)
    (nonempty : items ≠ []) (all : ∀ b ∈ items, b = a) : items = [a] := by
  cases items with
  | nil => exact absurd rfl nonempty
  | cons first rest =>
      obtain ⟨rfl, others⟩ := List.forall_mem_cons.mp all
      obtain ⟨absent, -⟩ := List.nodup_cons.mp distinct
      cases rest with
      | nil => rfl
      | cons second later =>
          have again := others second List.mem_cons_self
          exact absurd (again ▸ List.mem_cons_self) absent

variable [DecidableEq κ]

/-- A group keeps a metric if none goes that is the only one of a group. -/
theorem Populated.removal (populated : Populated kinds r)
    (distinct : (r.metrics.map kinds.metricKey).Nodup) {key : κ} (spared : ¬Only kinds r key)
    (groups : after.groups = r.groups)
    (metrics : ∀ m, m ∈ after.metrics ↔ m ∈ r.metrics ∧ kinds.metricKey m ≠ key) :
    Populated kinds after := by
  intro owner listed
  rw [groups] at listed
  obtain ⟨g, stored, rfl⟩ := List.mem_map.mp listed
  by_contra emptied
  -- Each metric of the group has the key that goes, so that this is a single metric.
  have all : ∀ m ∈ r.metrics, kinds.owner m = kinds.groupKey g → kinds.metricKey m = key := by
    intro m present same
    by_contra other
    exact emptied (List.mem_map.mpr ⟨m, (metrics m).mpr ⟨present, other⟩, same⟩)
  obtain ⟨m, present, same⟩ := List.mem_map.mp (populated _ listed)
  refine spared ⟨g, stored, singleton_of_all ?_ ?_ ?_⟩
  · exact distinct.sublist (List.filter_sublist.map _)
  · exact List.ne_nil_of_mem
      (List.mem_map_of_mem (List.mem_filter.mpr ⟨present, decide_eq_true same⟩))
  · intro other member
    obtain ⟨row, chosen, rfl⟩ := List.mem_map.mp member
    obtain ⟨rowPresent, names⟩ := List.mem_filter.mp chosen
    exact all row rowPresent (of_decide_eq_true names)

theorem Populated.step (populated : Populated kinds r)
    (distinct : (r.metrics.map kinds.metricKey).Nodup)
    (spared : ∀ key, removable key → ¬Only kinds r key)
    (step : Step kinds removable r after) : Populated kinds after := by
  cases step with
  | kept => exact populated
  | groupAdded g ms titled valid owned nonempty =>
      intro key listed
      rw [List.map_append] at listed ⊢
      rcases List.mem_append.mp listed with stored | added
      · exact List.mem_append_left _ (populated key stored)
      · obtain ⟨m, member⟩ := List.exists_mem_of_ne_nil ms nonempty
        rw [List.mem_singleton.mp added, ← owned m member]
        exact List.mem_append_right _ (List.mem_map_of_mem member)
  | metricAdded m valid =>
      intro key listed
      rw [List.map_append]
      exact List.mem_append_left _ (populated key listed)
  | groupUpdated chosen change key titled =>
      intro wanted listed
      rw [Store.map_updateFirst chosen change kinds.groupKey key] at listed
      exact populated wanted listed
  | metricUpdated chosen change owner valid =>
      intro wanted listed
      rw [Store.map_updateFirst chosen change kinds.owner owner]
      exact populated wanted listed
  | groupRemoved key groups metrics =>
      intro owner listed
      obtain ⟨g, stored, rfl⟩ := List.mem_map.mp listed
      obtain ⟨present, other⟩ := (groups g).mp stored
      obtain ⟨m, member, same⟩ := List.mem_map.mp (populated _ (List.mem_map_of_mem present))
      exact List.mem_map.mpr ⟨m, (metrics m).mpr ⟨member, same ▸ other⟩, same⟩
  | metricRemoved key allowed groups metrics =>
      exact populated.removal distinct (spared key allowed) groups metrics

/-- The group whose only metric goes is left without one. -/
theorem Only.emptied {key : κ} (only : Only kinds r key) (groups : after.groups = r.groups)
    (metrics : ∀ m, m ∈ after.metrics ↔ m ∈ r.metrics ∧ kinds.metricKey m ≠ key) :
    ¬Populated kinds after := by
  obtain ⟨g, stored, alone⟩ := only
  intro populated
  have listed : kinds.groupKey g ∈ after.groups.map kinds.groupKey := by
    rw [groups]
    exact List.mem_map_of_mem stored
  obtain ⟨m, member, same⟩ := List.mem_map.mp (populated _ listed)
  obtain ⟨present, other⟩ := (metrics m).mp member
  have chosen : kinds.metricKey m ∈
      (r.metrics.filter fun m => kinds.owner m = kinds.groupKey g).map kinds.metricKey :=
    List.mem_map_of_mem (List.mem_filter.mpr ⟨present, decide_eq_true same⟩)
  rw [alone] at chosen
  exact other (List.mem_singleton.mp chosen)

end Roster

end RolloutWatch

import RolloutWatch.Store.Contract
import Mathlib.Data.List.Nodup

/-!
Rows in lists: what an update of the first row with a property does to the list, and how the
row with a key is found in it. A key that no two rows share picks out one row at most.
-/

namespace RolloutWatch.Store

variable {α β : Type}

theorem updateFirst_found (p : α → Bool) (change : α → α) (rows : List α) :
    (updateFirst p change rows).1 = rows.any p := by
  induction rows with
  | nil => rfl
  | cons row rest ih =>
      unfold updateFirst
      cases holds : p row with
      | true => simp only [if_true, List.any_cons, holds, Bool.true_or]
      | false =>
          simp only [Bool.false_eq_true, if_false, List.any_cons, holds, Bool.false_or]
          exact ih

theorem updateFirst_of_not_found (p : α → Bool) (change : α → α) (rows : List α)
    (missed : (updateFirst p change rows).1 = false) :
    (updateFirst p change rows).2 = rows := by
  induction rows with
  | nil => rfl
  | cons row rest ih =>
      unfold updateFirst at missed ⊢
      cases holds : p row with
      | true =>
          rw [holds] at missed
          cases missed
      | false =>
          simp only [holds, Bool.false_eq_true, if_false] at missed ⊢
          rw [ih missed]

/-- What a change leaves alone in a row, an update leaves alone in the list. -/
theorem map_updateFirst (p : α → Bool) (change : α → α) (view : α → β)
    (same : ∀ row, view (change row) = view row) (rows : List α) :
    (updateFirst p change rows).2.map view = rows.map view := by
  induction rows with
  | nil => rfl
  | cons row rest ih =>
      unfold updateFirst
      cases p row with
      | true => simp only [if_true, List.map_cons, same]
      | false => simp only [Bool.false_eq_true, if_false, List.map_cons, ih]

/-- With a key of its own for every row, an update that is meant for one key changes the row that
has the property, if there is one. -/
theorem updateFirst_eq_map (key : α → β) (wanted : β) {p : α → Bool}
    (meant : ∀ row, p row = true → key row = wanted) (change : α → α) {rows : List α}
    (distinct : (rows.map key).Nodup) :
    (updateFirst p change rows).2 = rows.map fun row => if p row then change row else row := by
  induction rows with
  | nil => rfl
  | cons row rest ih =>
      obtain ⟨absent, restDistinct⟩ := List.nodup_cons.mp distinct
      unfold updateFirst
      cases here : p row with
      | true =>
          have others : ∀ other ∈ rest, (if p other then change other else other) = other := by
            intro other member
            apply if_neg
            intro again
            apply absent
            rw [meant row here, ← meant other again]
            exact List.mem_map_of_mem member
          simp only [if_true, List.map_cons, here]
          rw [List.map_congr_left others, List.map_id']
      | false =>
          simp only [here, Bool.false_eq_true, if_false, List.map_cons]
          rw [ih restDistinct]

/-- With a key of its own for every row, an update by key changes the row with the key. -/
theorem updateFirst_of_nodup [DecidableEq β] (key : α → β) (wanted : β) (change : α → α)
    (rows : List α) (distinct : (rows.map key).Nodup) :
    (updateFirst (fun row => key row = wanted) change rows).2 =
      rows.map fun row => if key row = wanted then change row else row := by
  rw [updateFirst_eq_map key wanted (fun _ holds => of_decide_eq_true holds) change distinct]
  simp only [decide_eq_true_eq]

/-- Among rows with keys of their own a row that is found by its key and a property is the one
with the key. -/
theorem updateFirst_and_of_nodup [DecidableEq β] (key : α → β) (wanted : β) (q : α → Bool)
    (change : α → α) {rows : List α} (distinct : (rows.map key).Nodup)
    (found : (rows.any fun row => key row = wanted && q row) = true) :
    (updateFirst (fun row => key row = wanted && q row) change rows).2 =
      rows.map fun row => if key row = wanted then change row else row := by
  rw [← updateFirst_of_nodup key wanted change rows distinct]
  induction rows with
  | nil => rfl
  | cons row rest ih =>
      obtain ⟨absent, restDistinct⟩ := List.nodup_cons.mp distinct
      unfold updateFirst
      by_cases here : key row = wanted
      · have holds : q row = true := by
          cases other : q row with
          | true => rfl
          | false =>
              rw [List.any_cons, other, Bool.and_false, Bool.false_or] at found
              obtain ⟨later, member, both⟩ := List.any_eq_true.mp found
              have same := of_decide_eq_true ((Bool.and_eq_true _ _).mp both).1
              exact absurd (here.trans same.symm ▸ List.mem_map_of_mem member) absent
        simp only [here, holds, decide_true, Bool.and_self, if_true]
      · rw [List.any_cons, decide_eq_false here, Bool.false_and, Bool.false_or] at found
        simp only [here, decide_false, Bool.false_and, Bool.false_eq_true, if_false]
        rw [ih restDistinct found]

/-- An update by one key changes the row with another key as well. -/
theorem updateFirst_of_owner {γ : Type} [DecidableEq β] [DecidableEq γ] {key : α → β}
    {owner : α → γ} {rows : List α} (distinct : (rows.map key).Nodup)
    (owners : (rows.map owner).Nodup) {row : α} (stored : row ∈ rows) (change rewrite : α → α)
    (same : change row = rewrite row) :
    (updateFirst (fun other => key other = key row) change rows).2 =
      rows.map fun other => if owner other = owner row then rewrite other else other := by
  rw [updateFirst_of_nodup key (key row) change rows distinct]
  apply List.map_congr_left
  intro other member
  by_cases equal : key other = key row
  · rw [List.inj_on_of_nodup_map distinct member stored equal, if_pos rfl, if_pos rfl, same]
  · have apart : owner other ≠ owner row := fun owned =>
      equal (congrArg key (List.inj_on_of_nodup_map owners member stored owned))
    rw [if_neg equal, if_neg apart]

theorem exists_updated (p : α → Bool) (change : α → α) {rows : List α}
    (found : rows.any p = true) :
    ∃ row ∈ rows, p row = true ∧ change row ∈ (updateFirst p change rows).2 := by
  induction rows with
  | nil => cases found
  | cons first rest ih =>
      unfold updateFirst
      cases holds : p first with
      | true => exact ⟨first, List.mem_cons_self, holds, List.mem_cons_self⟩
      | false =>
          rw [List.any_cons, holds, Bool.false_or] at found
          obtain ⟨row, member, wanted, changed⟩ := ih found
          exact ⟨row, List.mem_cons_of_mem _ member, wanted, List.mem_cons_of_mem _ changed⟩

theorem updateFirst_map {p : α → Bool} {q : β → Bool} {change : α → α} {rewrite : β → β}
    {row : α → β} (wanted : q ∘ row = p) (same : rewrite ∘ row = row ∘ change)
    (rows : List α) :
    updateFirst q rewrite (rows.map row) =
      ((updateFirst p change rows).1, (updateFirst p change rows).2.map row) := by
  induction rows with
  | nil => rfl
  | cons a rest ih =>
      have holds : q (row a) = p a := congrFun wanted a
      have changed : rewrite (row a) = row (change a) := congrFun same a
      rw [List.map_cons, updateFirst, updateFirst, holds, changed]
      cases p a with
      | true => rfl
      | false => simp only [Bool.false_eq_true, if_false, ih, List.map_cons]

theorem forall_updateFirst_of_changed {p : α → Bool} {change : α → α} {property : α → Prop}
    {rows : List α} (holds : ∀ row ∈ rows, property row)
    (changed : ∀ row ∈ rows, p row = true → property (change row)) :
    ∀ row ∈ (updateFirst p change rows).2, property row := by
  induction rows with
  | nil => exact holds
  | cons first rest ih =>
      obtain ⟨here, later⟩ := List.forall_mem_cons.mp holds
      obtain ⟨changedHere, changedLater⟩ := List.forall_mem_cons.mp changed
      unfold updateFirst
      cases wanted : p first with
      | true => exact List.forall_mem_cons.mpr ⟨changedHere wanted, later⟩
      | false => exact List.forall_mem_cons.mpr ⟨here, ih later changedLater⟩

theorem forall_updateFirst {p : α → Bool} {change : α → α} {property : α → Prop}
    {rows : List α} (holds : ∀ row ∈ rows, property row)
    (keeps : ∀ row, property row → property (change row)) :
    ∀ row ∈ (updateFirst p change rows).2, property row :=
  forall_updateFirst_of_changed holds fun row member _ => keeps row (holds row member)

/-- An update that has found a row has changed the first one with the property. -/
theorem exists_first {p : α → Bool} {change : α → α} {rows : List α}
    (hit : (updateFirst p change rows).1 = true) : ∃ row, rows.find? p = some row := by
  rw [updateFirst_found] at hit
  exact Option.isSome_iff_exists.mp (List.find?_isSome.mpr (List.any_eq_true.mp hit))

theorem exists_find_of_mem_keys [DecidableEq β] (key : α → β) (wanted : β) (rows : List α)
    (member : wanted ∈ rows.map key) :
    ∃ row, rows.find? (fun row => key row = wanted) = some row := by
  obtain ⟨row, present, same⟩ := List.mem_map.mp member
  cases found : rows.find? (fun row => key row = wanted) with
  | some first => exact ⟨first, rfl⟩
  | none =>
      have absent := List.find?_eq_none.mp found row present
      exact absurd (decide_eq_true same) absent

theorem find_some_key [DecidableEq β] (key : α → β) {wanted : β} {rows : List α} {row : α}
    (found : rows.find? (fun row => key row = wanted) = some row) :
    row ∈ rows ∧ key row = wanted := by
  have holds := List.find?_some found
  exact ⟨List.mem_of_find?_eq_some found, of_decide_eq_true holds⟩

theorem find_cons [DecidableEq β] (column : α → β) (wanted : β) (row : α) (rest : List α) :
    (row :: rest).find? (fun other => column other = wanted) =
      if column row = wanted then some row
      else rest.find? fun other => column other = wanted := by
  rw [List.find?_cons]
  by_cases same : column row = wanted
  · rw [decide_eq_true same, if_pos same]
  · rw [decide_eq_false same, if_neg same]

/-- An update by one property changes what is found by another column only if it is the changed
row, which is the first one with the property. -/
theorem find_updateFirst [DecidableEq β] {p : α → Bool} {change : α → α} (column : α → β)
    (kept : ∀ row, column (change row) = column row) {rows : List α} {target : α}
    (first : rows.find? p = some target) (wanted : β) :
    (updateFirst p change rows).2.find? (fun row => column row = wanted) =
      (rows.find? fun row => column row = wanted).map fun row =>
        if column row = column target ∧ p row = true then change row else row := by
  induction rows with
  | nil => cases first
  | cons row rest ih =>
      unfold updateFirst
      cases here : p row with
      | true =>
          rw [List.find?_cons_of_pos here] at first
          obtain rfl := Option.some.inj first
          simp only [if_true]
          rw [find_cons, find_cons, kept]
          by_cases same : column row = wanted
          · rw [if_pos same, if_pos same, Option.map_some, if_pos ⟨rfl, here⟩]
          · rw [if_neg same, if_neg same]
            cases found : rest.find? fun other => column other = wanted with
            | none => rfl
            | some other =>
                have named := (find_some_key column found).2
                have apart : ¬(column other = column row ∧ p other = true) := fun both =>
                  same (both.1.symm.trans named)
                rw [Option.map_some, if_neg apart]
      | false =>
          rw [List.find?_cons_of_neg (by rw [here]; decide)] at first
          simp only [Bool.false_eq_true, if_false]
          rw [find_cons, find_cons]
          by_cases same : column row = wanted
          · have missed : ¬(column row = column target ∧ p row = true) := fun both => by
              rw [here] at both
              cases both.2
            rw [if_pos same, if_pos same, Option.map_some, if_neg missed]
          · rw [if_neg same, if_neg same]
            exact ih first

theorem exists_find_updated [DecidableEq β] (key : α → β) {wanted : β} {change : α → α}
    {rows : List α} (found : (updateFirst (fun row => key row = wanted) change rows).1 = true)
    (same : ∀ row, key (change row) = key row) :
    ∃ row, (updateFirst (fun row => key row = wanted) change rows).2.find?
      (fun row => key row = wanted) = some row := by
  rw [updateFirst_found] at found
  obtain ⟨row, -, holds, changed⟩ := exists_updated _ change found
  apply exists_find_of_mem_keys
  exact List.mem_map.mpr ⟨change row, changed, (same row).trans (of_decide_eq_true holds)⟩

theorem find_filter_of_kept [DecidableEq β] (key : α → β) (wanted : β) (keep : α → Bool)
    (rows : List α) (kept : ∀ row, key row = wanted → keep row = true) :
    (rows.filter keep).find? (fun row => key row = wanted) =
      rows.find? (fun row => key row = wanted) := by
  rw [List.find?_filter]
  congr 1
  funext row
  by_cases here : key row = wanted
  · simp only [here, kept row here, decide_true, and_self]
  · simp only [here, decide_false, Bool.false_eq_true, and_false]

theorem nodup_updateFirst {p : α → Bool} {change : α → α} {key : α → β}
    (same : ∀ row, key (change row) = key row) {rows : List α} (distinct : (rows.map key).Nodup) :
    ((updateFirst p change rows).2.map key).Nodup := by
  rw [map_updateFirst p change key same]
  exact distinct

theorem nodup_append {key : α → β} {rows added : List α} (distinct : (rows.map key).Nodup)
    (own : (added.map key).Nodup) (new : ∀ row ∈ added, key row ∉ rows.map key) :
    ((rows ++ added).map key).Nodup := by
  rw [List.map_append]
  refine distinct.append own ?_
  intro wanted stored taken
  obtain ⟨row, member, same⟩ := List.mem_map.mp taken
  exact new row member (same ▸ stored)

theorem nodup_concat {key : α → β} {rows : List α} {row : α} (distinct : (rows.map key).Nodup)
    (new : key row ∉ rows.map key) : ((rows ++ [row]).map key).Nodup :=
  nodup_append distinct (List.nodup_singleton _) (List.forall_mem_singleton.mpr new)

theorem filter_of_nodup [DecidableEq β] (key : α → β) {rows : List α}
    (distinct : (rows.map key).Nodup) {row : α} (stored : row ∈ rows) :
    rows.filter (fun other => key other = key row) = [row] := by
  induction rows with
  | nil => cases stored
  | cons first rest ih =>
      obtain ⟨absent, restDistinct⟩ := List.nodup_cons.mp distinct
      rcases List.mem_cons.mp stored with rfl | later
      · have others : rest.filter (fun other => key other = key row) = [] := by
          rw [List.filter_eq_nil_iff]
          intro other member same
          exact absent (List.mem_map.mpr ⟨other, member, of_decide_eq_true same⟩)
        rw [List.filter_cons, if_pos (decide_eq_true rfl), others]
      · have differs : ¬decide (key first = key row) = true := fun same =>
          absent (of_decide_eq_true same ▸ List.mem_map_of_mem later)
        rw [List.filter_cons, if_neg differs, ih restDistinct later]

/-- Among rows with keys of their own a row has a property if its key is that of one that has. -/
theorem mem_keys_filter (key : α → β) {rows : List α} (distinct : (rows.map key).Nodup) {row : α}
    (stored : row ∈ rows) (p : α → Bool) : key row ∈ (rows.filter p).map key ↔ p row = true := by
  constructor
  · intro known
    obtain ⟨other, chosen, same⟩ := List.mem_map.mp known
    obtain ⟨present, holds⟩ := List.mem_filter.mp chosen
    exact List.inj_on_of_nodup_map distinct present stored same ▸ holds
  · intro holds
    exact List.mem_map_of_mem (List.mem_filter.mpr ⟨stored, holds⟩)

/-- Among rows with keys of their own only the row with a key can have a property besides. -/
theorem find_and_of_nodup [DecidableEq β] (key : α → β) (wanted : β) (p : α → Bool)
    (rows : List α) (distinct : (rows.map key).Nodup) :
    rows.find? (fun row => key row = wanted && p row) =
      (rows.find? fun row => key row = wanted).filter p := by
  induction rows with
  | nil => rfl
  | cons row rest ih =>
      obtain ⟨absent, restDistinct⟩ := List.nodup_cons.mp distinct
      simp only [List.find?_cons]
      by_cases here : key row = wanted
      · have others : rest.find? (fun other => key other = wanted && p other) = none := by
          apply List.find?_eq_none.mpr
          intro other member both
          apply absent
          rw [here, ← of_decide_eq_true ((Bool.and_eq_true _ _).mp both).1]
          exact List.mem_map_of_mem member
        cases holds : p row with
        | true => simp only [here, holds, decide_true, Bool.and_self, Option.filter, if_true]
        | false =>
            simp only [here, holds, decide_true, Bool.and_false, others, Option.filter,
              Bool.false_eq_true, if_false]
      · simp only [here, decide_false, Bool.false_and]
        exact ih restDistinct

/-! ### Changes by key -/

section

variable {γ : Type} [DecidableEq γ] {key : α → γ} {owner : β → γ} {change : α → β → β}

def changeFor (key : α → γ) (owner : β → γ) (change : α → β → β) (items : List α) (row : β) : β :=
  match items.find? fun a => key a = owner row with
  | some a => change a row
  | none => row

theorem changeFor_of_absent {items : List α} {row : β} (absent : owner row ∉ items.map key) :
    changeFor key owner change items row = row := by
  have missing : items.find? (fun a => key a = owner row) = none := by
    rw [List.find?_eq_none]
    intro a member same
    exact absent (List.mem_map.mpr ⟨a, member, of_decide_eq_true same⟩)
  unfold changeFor
  rw [missing]

theorem changeFor_of_mem {items : List α} (distinct : (items.map key).Nodup) {a : α}
    (member : a ∈ items) {row : β} (same : key a = owner row) :
    changeFor key owner change items row = change a row := by
  obtain ⟨b, found⟩ :=
    exists_find_of_mem_keys key (owner row) items (List.mem_map.mpr ⟨a, member, same⟩)
  obtain ⟨present, first⟩ := find_some_key key found
  unfold changeFor
  rw [found, List.inj_on_of_nodup_map distinct present member (first.trans same.symm)]

theorem owner_changeFor (kept : ∀ a row, owner (change a row) = owner row) (items : List α)
    (row : β) : owner (changeFor key owner change items row) = owner row := by
  unfold changeFor
  cases items.find? fun a => key a = owner row with
  | none => rfl
  | some a => exact kept a row

/-- Items with keys of their own make their changes one after the other. -/
theorem changeFor_cons (kept : ∀ a row, owner (change a row) = owner row) {first : α}
    {rest : List α} (absent : key first ∉ rest.map key) (row : β) :
    changeFor key owner change (first :: rest) row =
      changeFor key owner change rest
        (if owner row = key first then change first row else row) := by
  by_cases same : owner row = key first
  · have after : owner (change first row) ∉ rest.map key := by
      rw [kept, same]
      exact absent
    have found : (first :: rest).find? (fun a => key a = owner row) = some first :=
      List.find?_cons_of_pos (decide_eq_true same.symm)
    rw [if_pos same, changeFor_of_absent after]
    unfold changeFor
    rw [found]
  · have passed : (first :: rest).find? (fun a => key a = owner row) =
        rest.find? fun a => key a = owner row :=
      List.find?_cons_of_neg fun equal => same (of_decide_eq_true equal).symm
    rw [if_neg same]
    unfold changeFor
    rw [passed]

/-- Items with different keys may make their changes in any order. -/
theorem changes_commute (kept : ∀ a row, owner (change a row) = owner row) {a b : α}
    (apart : key a ≠ key b) :
    ((fun row => if owner row = key a then change a row else row) ∘
        fun row => if owner row = key b then change b row else row) =
      (fun row => if owner row = key b then change b row else row) ∘
        fun row => if owner row = key a then change a row else row := by
  funext row
  simp only [Function.comp_apply]
  by_cases first : owner row = key a
  · simp only [first, kept, apart, if_true, if_false]
  · by_cases second : owner row = key b
    · simp only [second, kept, apart.symm, if_true, if_false]
    · simp only [first, second, if_false]

/-- So it is for anything made of rows that can be mapped over. -/
theorem foldl_changeFor {τ : Type} (mapRows : (β → β) → τ → τ) (same : ∀ t, mapRows id t = t)
    (compose : ∀ f g t, mapRows g (mapRows f t) = mapRows (g ∘ f) t)
    (kept : ∀ a row, owner (change a row) = owner row) {items : List α}
    (distinct : (items.map key).Nodup) (t : τ) :
    items.foldl
        (fun t a => mapRows (fun row => if owner row = key a then change a row else row) t) t =
      mapRows (changeFor key owner change items) t := by
  induction items generalizing t with
  | nil => exact (same t).symm
  | cons first rest ih =>
      obtain ⟨absent, restDistinct⟩ := List.nodup_cons.mp distinct
      rw [List.foldl_cons, ih restDistinct, compose]
      congr 1
      funext row
      exact (changeFor_cons kept absent row).symm

end

end RolloutWatch.Store

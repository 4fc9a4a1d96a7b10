import RolloutWatch.Keyed
import Mathlib.Data.List.Nodup

/-!
Tables that are filled from a list of items. Each item may put an entry under a key of its own,
so that the table holds, under each key, the entry of the last item that has put one there.
-/

namespace RolloutWatch.Keyed

variable {α β : Type}

/-- No key comes twice, and the keys are in order. -/
def Ascending (table : List (String × α)) : Prop :=
  (table.map Prod.fst).Pairwise (· < ·)

theorem get?_put (key other : String) (entry : α) (table : List (String × α)) :
    get? other (put key entry table) =
      (if key = other then some entry else none).or (get? other table) := by
  induction table with
  | nil =>
      unfold put get?
      by_cases same : key = other <;> simp [same]
  | cons first rest ih =>
      obtain ⟨k, e⟩ := first
      unfold get? at ih ⊢
      unfold put
      by_cases same : key = other
      · subst same
        simp only [if_true, Option.some_or] at ih ⊢
        split
        · simp
        · split
          · simp
          · rename_i differs _
            rw [List.find?_cons_of_neg, ih]
            simp only [decide_eq_true_eq]
            exact fun equal => differs equal.symm
      · simp only [if_neg same, Option.none_or] at ih ⊢
        split
        · rename_i equal
          subst equal
          simp [same]
        · split
          · simp [same]
          · rw [List.find?_cons, List.find?_cons]
            split
            · rfl
            · exact ih

theorem get?_filter_ne (key other : String) (table : List (String × α)) :
    get? other (table.filter fun entry => entry.1 ≠ key) =
      if key = other then none else get? other table := by
  unfold get?
  rw [List.find?_filter]
  by_cases same : key = other
  · rw [if_pos same, Option.map_eq_none_iff, List.find?_eq_none]
    rintro ⟨k, entry⟩ - found
    simp only [decide_eq_true_eq] at found
    exact found.1 (found.2.trans same.symm)
  · rw [if_neg same]
    congr 2
    funext entry
    by_cases found : entry.1 = other
    · simp [found, Ne.symm same]
    · simp [found]

/-- To change the entry of a key changes it for that key only. -/
theorem get?_map_entry (key other : String) (change : α → α) (table : List (String × α)) :
    get? other (table.map fun (k, entry) => if k = key then (k, change entry) else (k, entry)) =
      if key = other then (get? other table).map change else get? other table := by
  induction table with
  | nil => exact (ite_self _).symm
  | cons first rest ih =>
      obtain ⟨k, entry⟩ := first
      unfold get? at ih ⊢
      by_cases here : k = other
      · subst here
        by_cases same : key = k
        · simp [same]
        · simp [same, Ne.symm same]
      · have apart : (if k = key then (k, change entry) else (k, entry)).1 ≠ other := by
          split <;> exact here
        rw [List.map_cons, List.find?_cons_of_neg (by simpa using apart), ih,
          List.find?_cons_of_neg (by simpa using here)]

theorem eq_or_mem_of_mem_put {key k : String} {entry e : α} {table : List (String × α)}
    (member : (k, e) ∈ put key entry table) : k = key ∧ e = entry ∨ (k, e) ∈ table := by
  induction table with
  | nil => exact .inl (Prod.mk.inj (List.mem_singleton.mp member))
  | cons first rest ih =>
      unfold put at member
      split at member
      · rcases List.mem_cons.mp member with here | later
        · exact .inl (Prod.mk.inj here)
        · exact .inr (List.mem_cons_of_mem _ later)
      · split at member
        · rcases List.mem_cons.mp member with here | later
          · exact .inl (Prod.mk.inj here)
          · exact .inr later
        · rcases List.mem_cons.mp member with here | later
          · exact .inr (here ▸ List.mem_cons_self)
          · exact (ih later).imp_right (List.mem_cons_of_mem _)

theorem mem_keys_put {key k : String} {entry : α} {table : List (String × α)}
    (member : k ∈ (put key entry table).map Prod.fst) : k = key ∨ k ∈ table.map Prod.fst := by
  obtain ⟨⟨_, e⟩, present, rfl⟩ := List.mem_map.mp member
  exact (eq_or_mem_of_mem_put present).imp And.left List.mem_map_of_mem

theorem Ascending.put {table : List (String × α)} (ascending : Ascending table) (key : String)
    (entry : α) : Ascending (put key entry table) := by
  induction table with
  | nil => exact List.pairwise_singleton _ _
  | cons first rest ih =>
      obtain ⟨above, restAscending⟩ := List.pairwise_cons.mp ascending
      unfold Keyed.put
      split
      · rename_i same
        exact List.pairwise_cons.mpr ⟨same ▸ above, restAscending⟩
      · rename_i differs
        split
        · rename_i before
          refine List.pairwise_cons.mpr ⟨?_, ascending⟩
          intro k member
          rcases List.mem_cons.mp member with here | later
          · rw [here]
            exact before
          · exact String.lt_trans before (above k later)
        · rename_i notBefore
          refine List.pairwise_cons.mpr ⟨?_, ih restAscending⟩
          intro k member
          rcases mem_keys_put member with here | later
          · rw [here]
            exact String.not_le.mp fun below =>
              differs (String.le_antisymm below (String.not_lt.mp notBefore))
          · exact above k later

theorem length_put {key : String} {entry : α} {table : List (String × α)}
    (absent : get? key table = none) : (put key entry table).length = table.length + 1 := by
  induction table with
  | nil => rfl
  | cons first rest ih =>
      obtain ⟨k, e⟩ := first
      unfold get? at absent ih
      rw [Option.map_eq_none_iff, List.find?_cons] at absent
      split at absent
      · cases absent
      · rename_i differs
        unfold put
        rw [if_neg fun same => of_decide_eq_false differs same.symm]
        split
        · rfl
        · rw [List.length_cons, ih (by rw [absent]; rfl), List.length_cons]

theorem put_last {key : String} (entry : α) {table : List (String × α)}
    (beyond : ∀ k ∈ table.map Prod.fst, k < key) :
    put key entry table = table ++ [(key, entry)] := by
  induction table with
  | nil => rfl
  | cons first rest ih =>
      have before : first.1 < key := beyond first.1 List.mem_cons_self
      have differs : key ≠ first.1 := fun same => String.lt_irrefl key (same ▸ before)
      rw [Keyed.put, if_neg differs, if_neg (String.lt_asymm before),
        ih fun k member => beyond k (List.mem_cons_of_mem _ member), List.cons_append]

theorem get?_eq_none {key : String} {table : List (String × α)} :
    get? key table = none ↔ key ∉ table.map Prod.fst := by
  unfold get?
  rw [Option.map_eq_none_iff, List.find?_eq_none, List.mem_map]
  constructor
  · rintro absent ⟨entry, member, same⟩
    exact absent entry member (decide_eq_true same)
  · intro absent entry member same
    exact absent ⟨entry, member, of_decide_eq_true same⟩

theorem Ascending.nodup {table : List (String × α)} (ascending : Ascending table) :
    (table.map Prod.fst).Nodup := by
  refine List.Pairwise.imp ?_ ascending
  intro a b below same
  rw [same] at below
  exact String.lt_irrefl b below

/-! ### Tables from items -/

def enter (key : String) (entry : Option α) (table : List (String × α)) : List (String × α) :=
  match entry with
  | some value => put key value table
  | none => table

/-- Enters the entries of some items, one after the other. -/
def collect (key : β → String) (entry : β → Option α) (items : List β)
    (table : List (String × α)) : List (String × α) :=
  items.foldl (fun table item => enter (key item) (entry item) table) table

/-- The entry that an item has for a key. -/
def entryFor (key : β → String) (entry : β → Option α) (k : String) (item : β) : Option α :=
  if key item = k then entry item else none

theorem get?_enter (key other : String) (entry : Option α) (table : List (String × α)) :
    get? other (enter key entry table) =
      (if key = other then entry else none).or (get? other table) := by
  cases entry with
  | some value => exact get?_put key other value table
  | none => rw [ite_self]; rfl

theorem getLast?_filterMap_cons (f : β → Option α) (item : β) (rest : List β) :
    ((item :: rest).filterMap f).getLast? = ((rest.filterMap f).getLast?).or (f item) := by
  cases answered : f item with
  | none => rw [List.filterMap_cons_none answered, Option.or_none]
  | some entry =>
      rw [List.filterMap_cons_some answered, List.getLast?_cons]
      cases (rest.filterMap f).getLast? <;> rfl

/-- A key has the entry of the last item that has one for it. -/
theorem get?_collect (key : β → String) (entry : β → Option α) (items : List β)
    (table : List (String × α)) (k : String) :
    get? k (collect key entry items table) =
      ((items.filterMap (entryFor key entry k)).getLast?).or (get? k table) := by
  induction items generalizing table with
  | nil => rfl
  | cons item rest ih =>
      rw [getLast?_filterMap_cons, Option.or_assoc]
      exact (ih _).trans (congrArg _ (get?_enter _ _ _ _))

/-- Whatever is in a table has been there before, or an item has entered it under its key. -/
theorem mem_collect {key : β → String} {entry : β → Option α} {items : List β}
    {table : List (String × α)} {k : String} {e : α}
    (member : (k, e) ∈ collect key entry items table) :
    (k, e) ∈ table ∨ ∃ item ∈ items, key item = k ∧ entry item = some e := by
  induction items generalizing table with
  | nil => exact .inl member
  | cons item rest ih =>
      rcases ih member with entered | ⟨other, present, named, given⟩
      · change (k, e) ∈ enter (key item) (entry item) table at entered
        cases answered : entry item with
        | none =>
            rw [answered] at entered
            exact .inl entered
        | some value =>
            rw [answered] at entered
            rcases eq_or_mem_of_mem_put entered with ⟨rfl, rfl⟩ | before
            · exact .inr ⟨item, List.mem_cons_self, rfl, answered⟩
            · exact .inl before
      · exact .inr ⟨other, List.mem_cons_of_mem _ present, named, given⟩

theorem exists_get?_collect {key : β → String} {entry : β → Option α} {items : List β} {item : β}
    (member : item ∈ items) {value : α} (given : entry item = some value)
    (table : List (String × α)) :
    ∃ other, get? (key item) (collect key entry items table) = some other := by
  have own : value ∈ items.filterMap (entryFor key entry (key item)) :=
    List.mem_filterMap.mpr ⟨item, member, (if_pos rfl).trans given⟩
  rw [get?_collect, List.getLast?_eq_getLast_of_ne_nil (List.ne_nil_of_mem own)]
  exact ⟨_, rfl⟩

theorem Ascending.enter {table : List (String × α)} (ascending : Ascending table) (key : String)
    (entry : Option α) : Ascending (enter key entry table) := by
  cases entry with
  | some value => exact ascending.put key value
  | none => exact ascending

theorem Ascending.collect {table : List (String × α)} (ascending : Ascending table)
    (key : β → String) (entry : β → Option α) (items : List β) :
    Ascending (collect key entry items table) := by
  induction items generalizing table with
  | nil => exact ascending
  | cons item rest ih => exact ih (ascending.enter _ _)

/-- Items with keys of their own have an entry each, if they have one at all. -/
theorem get?_collect_of_nodup {key : β → String} {entry : β → Option α} {items : List β}
    (distinct : (items.map key).Nodup) {item : β} (member : item ∈ items) :
    get? (key item) (collect key entry items []) = entry item := by
  have others {rest : List β} (absent : key item ∉ rest.map key) :
      rest.filterMap (entryFor key entry (key item)) = [] := by
    rw [List.filterMap_eq_nil_iff]
    intro other present
    exact if_neg fun same => absent (List.mem_map.mpr ⟨other, present, same⟩)
  rw [get?_collect]
  refine (Option.or_none).trans ?_
  induction items with
  | nil => cases member
  | cons first rest ih =>
      obtain ⟨absent, restDistinct⟩ := List.nodup_cons.mp distinct
      rw [getLast?_filterMap_cons]
      rcases List.mem_cons.mp member with rfl | later
      · rw [others absent]
        exact if_pos rfl
      · rw [ih restDistinct later]
        have differs : key first ≠ key item := fun same =>
          absent (List.mem_map.mpr ⟨item, later, same.symm⟩)
        exact (congrArg _ (if_neg differs)).trans Option.or_none

theorem length_collect {key : β → String} {entry : β → Option α} {items : List β}
    {table : List (String × α)} (distinct : (items.map key).Nodup)
    (absent : ∀ item ∈ items, get? (key item) table = none) :
    (collect key entry items table).length = table.length + (items.filterMap entry).length := by
  induction items generalizing table with
  | nil => rfl
  | cons item rest ih =>
      obtain ⟨differs, restDistinct⟩ := List.nodup_cons.mp distinct
      obtain ⟨here, later⟩ := List.forall_mem_cons.mp absent
      have restAbsent : ∀ other ∈ rest,
          get? (key other) (enter (key item) (entry item) table) = none := by
        intro other member
        rw [get?_enter, later other member, if_neg]
        · rfl
        · exact fun same => differs (List.mem_map.mpr ⟨other, member, same.symm⟩)
      refine (ih restDistinct restAbsent).trans ?_
      cases answered : entry item with
      | none => rw [List.filterMap_cons_none answered]; rfl
      | some entry =>
          rw [List.filterMap_cons_some answered, List.length_cons]
          unfold enter
          rw [length_put here]
          omega

end RolloutWatch.Keyed

import RolloutWatch.Time.Instant
import Mathlib.Data.Int.Order.Basic
import Mathlib.Data.List.Lex
import Mathlib.Data.List.Sort

/-!
The order of instants, and lists that are sorted by time. Sorting is stable, so that a part of a
sorted list is the part sorted, and items of one time stay in the order in which they came.
-/

namespace RolloutWatch

namespace Instant

theorem before_eq_false {a b : Instant} : a.before b = false ↔ b.civil.key ≤ a.civil.key := by
  unfold before
  rw [decide_eq_false_iff_not, not_lt]

theorem key_injective {a b : Instant} (same : a.civil.key = b.civil.key) : a = b := by
  obtain ⟨⟨year, month, day, hour, minute, second, nano⟩, valid⟩ := a
  obtain ⟨⟨year', month', day', hour', minute', second', nano'⟩, valid'⟩ := b
  simp only [Civil.key, List.cons.injEq, Int.natCast_inj, and_true] at same
  obtain ⟨rfl, rfl, rfl, rfl, rfl, rfl, rfl⟩ := same
  rfl

/-- Two instants neither of which is before the other one are the same. -/
theorem eq_of_not_before {a b : Instant} (notBefore : a.before b = false)
    (notAfter : b.before a = false) : a = b :=
  key_injective (le_antisymm (before_eq_false.mp notAfter) (before_eq_false.mp notBefore))

theorem before_irrefl (t : Instant) : t.before t = false :=
  before_eq_false.mpr le_rfl

end Instant

/-! ### Stable sorting -/

section

variable {α : Type} {le : α → α → Bool}

theorem around_sorted {a : α} {front back : List α}
    (sorted : (front ++ a :: back).Pairwise (le · ·))
    (earlier : ∀ b ∈ front, (!le a b) = true) :
    (front ++ back).filter (fun b => !le a b) = front ∧
      (front ++ back).filter (fun b => le a b) = back := by
  obtain ⟨-, rest, -⟩ := List.pairwise_append.mp sorted
  have later := (List.pairwise_cons.mp rest).1
  have notEarlier : ∀ b ∈ back, ¬(!le a b) = true := fun b member => by
    rw [later b member]
    decide
  have notLater : ∀ b ∈ front, ¬le a b = true := fun b member same => by
    have less := earlier b member
    rw [same] at less
    cases less
  rw [List.filter_append, List.filter_append, List.filter_eq_self.mpr earlier,
    List.filter_eq_nil_iff.mpr notEarlier, List.filter_eq_nil_iff.mpr notLater,
    List.filter_eq_self.mpr later]
  exact ⟨List.append_nil _, List.nil_append _⟩

theorem mergeSort_congr {le other : α → α → Bool} {items : List α}
    (agree : ∀ a ∈ items, ∀ b ∈ items, le a b = other a b) :
    items.mergeSort le = items.mergeSort other := by
  have same : (items.mergeSort le).map id = (items.map id).mergeSort other :=
    List.map_mergeSort agree
  rwa [List.map_id, List.map_id] at same

/-- The comparison is that of keys. -/
def ComparesBy {κ : Type} [LinearOrder κ] (le : α → α → Bool) (key : α → κ) : Prop :=
  ∀ a b, le a b = true ↔ key a ≤ key b

namespace ComparesBy

variable {κ : Type} [LinearOrder κ] {key : α → κ}

theorem trans (compares : ComparesBy le key) (a b c : α) (ab : le a b = true)
    (bc : le b c = true) : le a c = true :=
  (compares a c).mpr (le_trans ((compares a b).mp ab) ((compares b c).mp bc))

theorem total (compares : ComparesBy le key) (a b : α) : (le a b || le b a) = true := by
  rw [Bool.or_eq_true, compares a b, compares b a]
  exact le_total _ _

theorem pairwise_mergeSort (compares : ComparesBy le key) (items : List α) :
    (items.mergeSort le).Pairwise (le · ·) :=
  List.pairwise_mergeSort compares.trans compares.total items

/-- A part of a sorted list is the part of the list sorted. -/
theorem filter_mergeSort (compares : ComparesBy le key) (p : α → Bool) (items : List α) :
    (items.mergeSort le).filter p = (items.filter p).mergeSort le := by
  induction items with
  | nil => rw [List.mergeSort_nil, List.filter_nil, List.mergeSort_nil]
  | cons a rest ih =>
      obtain ⟨front, back, sorted, others, earlier⟩ :=
        List.mergeSort_cons compares.trans compares.total a rest
      rw [others, List.filter_append] at ih
      rw [sorted, List.filter_append, List.filter_cons, List.filter_cons]
      cases chosen : p a with
      | false =>
          simp only [Bool.false_eq_true, if_false]
          exact ih
      | true =>
          simp only [if_true]
          -- The item has the same place among those of the part, before and after sorting.
          obtain ⟨fewer, more, partSorted, partOthers, partEarlier⟩ :=
            List.mergeSort_cons compares.trans compares.total a (rest.filter p)
          have inOrder : (front.filter p ++ a :: back.filter p).Pairwise (le · ·) := by
            have all := compares.pairwise_mergeSort (a :: rest)
            rw [sorted] at all
            exact all.sublist (List.filter_sublist.append (List.filter_sublist.cons_cons a))
          have partInOrder := compares.pairwise_mergeSort (a :: rest.filter p)
          rw [partSorted] at partInOrder
          obtain ⟨before, after⟩ := around_sorted inOrder
            fun b member => earlier b (List.mem_of_mem_filter member)
          obtain ⟨partBefore, partAfter⟩ := around_sorted partInOrder partEarlier
          rw [ih, partOthers] at before after
          rw [partSorted, ← before.symm.trans partBefore, ← after.symm.trans partAfter]

end ComparesBy

end

/-! ### Sorting by time -/

section

variable {α β : Type} {time : α → Instant}

/-- The items are listed in the order of their times. None is left out or added, and items of one
time stay in the order of insertion. -/
structure ListedByTime (time : α → Instant) (inserted listed : List α) : Prop where
  complete : listed.Perm inserted
  ascending : listed.Pairwise fun a b => (time b).before (time a) = false
  ties : ∀ t, listed.filter (fun a => time a = t) = inserted.filter fun a => time a = t

def notLater (time : α → Instant) (a b : α) : Bool :=
  !(time b).before (time a)

theorem notLater_comparesBy (time : α → Instant) :
    ComparesBy (notLater time) fun a => (time a).civil.key := by
  intro a b
  unfold notLater
  rw [Bool.not_eq_true', Instant.before_eq_false]

theorem listedByTime_mergeSort (time : α → Instant) (items : List α) :
    ListedByTime time items (items.mergeSort (notLater time)) where
  complete := List.mergeSort_perm _ _
  ascending := ((notLater_comparesBy time).pairwise_mergeSort items).imp
    fun later => (Bool.not_eq_true' _).mp later
  ties t := by
    rw [(notLater_comparesBy time).filter_mergeSort]
    apply List.mergeSort_of_pairwise
    apply List.pairwise_of_forall_mem_list
    intro a aMember b bMember
    have aTime := of_decide_eq_true (List.mem_filter.mp aMember).2
    have bTime := of_decide_eq_true (List.mem_filter.mp bMember).2
    unfold notLater
    rw [aTime, bTime, Instant.before_irrefl]
    rfl

/-- What is read from sorted items is listed as the items are. -/
theorem listedByTime_map {view : α → β} {viewTime : β → Instant}
    (same : ∀ a, viewTime (view a) = time a) (items : List α) :
    ListedByTime viewTime (items.map view) ((items.mergeSort (notLater time)).map view) := by
  have sorted : (items.mergeSort (notLater time)).map view =
      (items.map view).mergeSort (notLater viewTime) := by
    apply List.map_mergeSort
    intro a _ b _
    unfold notLater
    rw [same, same]
  rw [sorted]
  exact listedByTime_mergeSort viewTime _

end

end RolloutWatch

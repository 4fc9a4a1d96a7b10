import RolloutWatch.Engine.QueryPhase
import Mathlib.Data.List.Nodup

/-!
Every metric of a group stays in the query phase until its query has ended: what waits, what
runs and what has finished are together the numbered metrics, and finished outcomes of all of them
are put back into the order of the group.
-/

namespace RolloutWatch

def Outcome.entry (outcome : Outcome) : Nat × Metric :=
  (outcome.index, outcome.metric)

namespace QueryPhase

def taken (p : Phase) : List (Nat × Metric) :=
  p.finished.map Outcome.entry ++ p.running.map fun r => r.outcome.entry

def entries (p : Phase) : List (Nat × Metric) :=
  taken p ++ p.waiting

theorem finishDue_taken (now : Nat) (p : Phase) : (taken (finishDue now p)).Perm (taken p) := by
  have split : (p.running.filter (fun r => r.due ≤ now) ++
      p.running.filter fun r => now < r.due).Perm p.running := by
    have late : (fun r : Running => decide (now < r.due)) = fun r => !decide (r.due ≤ now) := by
      funext r
      rw [← decide_not]
      exact decide_eq_decide.mpr (Nat.not_le).symm
    rw [late]
    exact List.filter_append_perm _ _
  have moved := split.map fun r => r.outcome.entry
  rw [List.map_append] at moved
  have ended : (taken (finishDue now p)).Perm
      (p.finished.map Outcome.entry ++
        ((p.running.filter fun r => r.due ≤ now).map (fun r => r.outcome.entry) ++
          (p.running.filter fun r => now < r.due).map fun r => r.outcome.entry)) := by
    unfold taken finishDue
    simp only [List.map_append, List.map_reverse, List.map_map, List.append_assoc]
    rw [← List.append_assoc, ← List.append_assoc]
    exact ((List.reverse_perm _).append_right _ |>.trans List.perm_append_comm).append_right _
  exact ended.trans (moved.append_left _)

theorem enter_taken (engine : Engine)
    (findSource : EntityId → Except Error (Option DataSource)) (now index : Nat) (m : Metric)
    (p : Phase) :
    (taken (enter engine findSource now index m p)).Perm (taken p ++ [(index, m)]) ∧
      (enter engine findSource now index m p).waiting = p.waiting := by
  unfold enter
  rcases begin engine findSource p.registry m with ⟨begun, registry⟩
  simp only
  cases begun.time with
  | some time =>
      refine ⟨?_, rfl⟩
      simp only [taken, List.map_append, List.map_cons, List.map_nil, List.append_assoc]
      exact List.Perm.refl _
  | none =>
      refine ⟨?_, rfl⟩
      simp only [taken, List.map_cons, List.cons_append]
      exact (List.perm_append_singleton _ _).symm

/-- Places are given to the metrics in their order, and the others go on waiting. Nobody waits
while nothing runs. -/
theorem enterAll_entries (engine : Engine)
    (findSource : EntityId → Except Error (Option DataSource)) (now : Nat)
    (queue : List (Nat × Metric)) (p : Phase) :
    (entries (enterAll engine findSource now queue p)).Perm (taken p ++ queue) ∧
      ((enterAll engine findSource now queue p).running = [] →
        (enterAll engine findSource now queue p).waiting = []) := by
  induction queue generalizing p with
  | nil =>
      refine ⟨?_, fun _ => rfl⟩
      exact List.Perm.refl _
  | cons first rest ih =>
      obtain ⟨index, m⟩ := first
      unfold enterAll
      split
      · obtain ⟨others, idle⟩ := ih (enter engine findSource now index m p)
        refine ⟨others.trans ?_, idle⟩
        have entered := (enter_taken engine findSource now index m p).1
        have moved := entered.append_right rest
        rw [List.append_assoc] at moved
        exact moved
      · rename_i full
        refine ⟨List.Perm.refl _, ?_⟩
        intro idle
        have place : 1 ≤ engine.settings.permits := Nat.le_max_right _ _
        simp only at idle
        rw [idle] at full
        exact absurd place full

theorem round_entries (engine : Engine)
    (findSource : EntityId → Except Error (Option DataSource)) (now : Nat) (p : Phase) :
    (entries (round engine findSource now p)).Perm (entries p) ∧
      ((round engine findSource now p).running = [] →
        (round engine findSource now p).waiting = []) := by
  obtain ⟨kept, idle⟩ :=
    enterAll_entries engine findSource now (finishDue now p).waiting (finishDue now p)
  exact ⟨kept.trans ((finishDue_taken now p).append_right p.waiting), idle⟩

theorem number_indices (index : Nat) (metrics : List Metric) :
    (number index metrics).Pairwise (fun a b => a.1 < b.1) ∧
      ∀ entry ∈ number index metrics, index ≤ entry.1 := by
  induction metrics generalizing index with
  | nil => exact ⟨List.Pairwise.nil, fun entry member => absurd member List.not_mem_nil⟩
  | cons m rest ih =>
      obtain ⟨ordered, above⟩ := ih (index + 1)
      unfold number
      constructor
      · exact List.pairwise_cons.mpr ⟨fun entry member => above entry member, ordered⟩
      · intro entry member
        rcases List.mem_cons.mp member with here | later
        · cases here
          exact Nat.le_refl _
        · exact Nat.le_of_succ_le (above entry later)

theorem number_metrics (index : Nat) (metrics : List Metric) :
    (number index metrics).map Prod.snd = metrics := by
  induction metrics generalizing index with
  | nil => rfl
  | cons m rest ih =>
      unfold number
      rw [List.map_cons, ih]

theorem inGroupOrder_entries {metrics : List Metric} {outcomes : List Outcome}
    (all : (outcomes.map Outcome.entry).Perm (number 0 metrics)) :
    (inGroupOrder outcomes).map Outcome.entry = number 0 metrics := by
  obtain ⟨ordered, -⟩ := number_indices 0 metrics
  have sorted : ((inGroupOrder outcomes).map Outcome.entry).Pairwise (fun a b => a.1 ≤ b.1) := by
    rw [List.pairwise_map]
    have byIndex : (inGroupOrder outcomes).Pairwise
        fun a b => decide (a.index ≤ b.index) = true := by
      apply List.pairwise_mergeSort
      · intro a b c first second
        simp only [decide_eq_true_eq] at first second ⊢
        omega
      · intro a b
        simp only [Bool.or_eq_true, decide_eq_true_eq]
        omega
    exact byIndex.imp fun below => of_decide_eq_true below
  have permuted : ((inGroupOrder outcomes).map Outcome.entry).Perm (number 0 metrics) :=
    ((List.mergeSort_perm outcomes _).map Outcome.entry).trans all
  -- Positions are distinct, so that there is only one order by position.
  refine permuted.eq_of_pairwise ?_ sorted (ordered.imp Nat.le_of_lt)
  intro a b first second below above
  have same : a.1 = b.1 := Nat.le_antisymm below above
  have distinct : ((number 0 metrics).map Prod.fst).Nodup :=
    List.pairwise_map.mpr (ordered.imp fun less => Nat.ne_of_lt less)
  exact List.inj_on_of_nodup_map distinct (permuted.subset first) second same

end QueryPhase

end RolloutWatch

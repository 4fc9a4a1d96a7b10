import RolloutWatch.Proofs.Relational.Agreement

/-!
Runs on the two stores. As long as groups, metrics and executions are stored in the order of
their times of creation, a run that starts on an empty store in memory and on an empty
database gets the same answers from both, and the database always holds the rows of the store.
-/

namespace RolloutWatch

namespace MemoryStore

instance (times : List Instant) : Decidable (InOrder times) :=
  decidable_of_iff ((∀ t ∈ times, t.InCommonYears) ∧ times.Pairwise fun a b => b.before a = false)
    ⟨fun order => ⟨order.1, order.2⟩, fun order => ⟨order.common, order.ascending⟩⟩

instance (s : MemoryStore) : Decidable s.Chronological :=
  decidable_of_iff (InOrder (s.groups.map MetricsGroup.createdAt) ∧
      InOrder (s.metrics.map Metric.createdAt) ∧
      InOrder (s.executions.map MetricExecution.createdAt))
    ⟨fun ordered => ⟨ordered.1, ordered.2.1, ordered.2.2⟩,
      fun ordered => ⟨ordered.groups, ordered.metrics, ordered.executions⟩⟩

end MemoryStore

namespace Turn

/-- The creation times stay in order: before the run, between its turns and after it. -/
def ChronologicalRun : List Turn → MemoryStore → Prop
  | [], s => s.Chronological
  | turn :: rest, s => s.Chronological ∧ ChronologicalRun rest (turn.next s)

theorem ChronologicalRun.start {turns : List Turn} {s : MemoryStore}
    (chronological : ChronologicalRun turns s) : s.Chronological := by
  cases turns with
  | nil => exact chronological
  | cons turn rest => exact chronological.1

instance decidableChronologicalRun : (turns : List Turn) → (s : MemoryStore) →
    Decidable (ChronologicalRun turns s)
  | [], s => inferInstanceAs (Decidable s.Chronological)
  | turn :: rest, s =>
      have := decidableChronologicalRun rest (turn.next s)
      inferInstanceAs (Decidable (_ ∧ _))

def SameAnswers : List Turn → MemoryStore → RelationalStore → Prop
  | [], _, _ => True
  | turn :: rest, s, r =>
      turn.call.SameAnswer (turn.answer s) (turn.answer r) ∧
        SameAnswers rest (turn.next s) (turn.next r)

def InCommonYears (turn : Turn) : Prop :=
  ∀ t, turn.supply.Reads t → t.InCommonYears

theorem sameAnswers_mirror {turns : List Turn} {s : MemoryStore} (owned : MemoryStore.Owned s)
    (dated : MemoryStore.SourcesDated s) (fresh : FreshRun turns s)
    (chronological : ChronologicalRun turns s)
    (common : ∀ turn ∈ turns, turn.InCommonYears)
    (noEvaluation : ∀ turn ∈ turns, turn.call.evaluates = false) :
    SameAnswers turns s s.mirror ∧ run turns s.mirror = (run turns s).mirror := by
  induction turns generalizing s with
  | nil => exact ⟨trivial, rfl⟩
  | cons turn rest ih =>
      have ready : s.Mirrorable := ⟨owned, dated, chronological.1⟩
      have change := turn.change s
      have ownedAfter := owned.change fresh.1 change
      have datedAfter := dated.change (common turn List.mem_cons_self) change
      have readyAfter : (turn.next s).Mirrorable :=
        ⟨ownedAfter, datedAfter, chronological.2.start⟩
      have same := cameOutSame ready readyAfter fresh.1 (noEvaluation turn List.mem_cons_self)
      have next := next_mirror ready readyAfter fresh.1 (noEvaluation turn List.mem_cons_self)
      obtain ⟨answers, stores⟩ := ih ownedAfter datedAfter fresh.2 chronological.2
        (fun later member => common later (List.mem_cons_of_mem _ member))
        (fun later member => noEvaluation later (List.mem_cons_of_mem _ member))
      unfold SameAnswers run
      rw [next]
      exact ⟨⟨same.2, answers⟩, stores⟩

/-- The two stores give the same answers to the same calls, from empty stores on. -/
theorem stores_agree {turns : List Turn} (fresh : FreshRun turns .empty)
    (chronological : ChronologicalRun turns .empty)
    (common : ∀ turn ∈ turns, turn.InCommonYears)
    (noEvaluation : ∀ turn ∈ turns, turn.call.evaluates = false) :
    SameAnswers turns .empty (.onDatabase .empty) ∧
      run turns (RelationalStore.onDatabase .empty) = (run turns MemoryStore.empty).mirror :=
  sameAnswers_mirror MemoryStore.empty_owned MemoryStore.empty_sourcesDated fresh chronological
    common noEvaluation

end Turn

namespace Canary

theorem turn_inCommonYears (call : ServiceCall) (first : Nat) :
    (turn call first).InCommonYears := by
  rintro t ⟨reading, -, rfl⟩
  change Instant.epoch.InCommonYears
  decide +kernel

def backend : NewDataSource :=
  { name := "backend", workspaceId := .ofNat 9, pluginSrc := "prometheus", data := .null }

/-- The canary with a reading, read back and taken away, and a source that comes and goes. -/
def lifetime : List Turn :=
  turns ++ [meetsLater, turn .listGroups 500, turn (.findExecution (.ofNat 3)) 600,
    turn (.createSource backend) 610, turn (.listSources (.ofNat 9) none) 620,
    turn (.setHealth (.ofNat 610) .healthy) 630,
    turn (.listSources (.ofNat 9) (some .healthy)) 640, turn (.deleteSource (.ofNat 610)) 650,
    turn (.listSources (.ofNat 9) none) 660, turn (.deleteGroup group.id) 700,
    turn .listExecutions 800]

end Canary

theorem Turn.stores_agree_on_canary :
    SameAnswers Canary.lifetime .empty (.onDatabase .empty) ∧
      run Canary.lifetime (RelationalStore.onDatabase .empty) =
        (run Canary.lifetime MemoryStore.empty).mirror := by
  apply stores_agree
  · decide +kernel
  · decide +kernel
  · intro turn member
    simp only [Canary.lifetime, Canary.turns, Canary.meetsLater, List.cons_append, List.nil_append,
      List.mem_cons, List.not_mem_nil, or_false] at member
    rcases member with rfl | rfl | rfl | rfl | rfl | rfl | rfl | rfl | rfl | rfl | rfl | rfl | rfl
    all_goals exact Canary.turn_inCommonYears _ _
  · decide +kernel

end RolloutWatch

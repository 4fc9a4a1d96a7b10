import RolloutWatch.Proofs.Memory.Recording

/-!
Executions as functions of their history. The history of a metric are the readings that have
been recorded for it since it was stored, each with the metric as it was given to the
recording. The store does not keep it: a run of turns determines it.
-/

namespace RolloutWatch

namespace Turn

def readings {σ : Type} [Store σ] (turn : Turn) (store : σ) : List Recording :=
  match turn.call with
  | .record m value =>
      Evaluation.recorded turn.engine.settings.transitionPolicy [{ metric := m, value }]
        (turn.world store)
  | .evaluate groupId =>
      Evaluation.readings turn.engine groupId
        { cancelAfter := none, deadline := turn.engine.settings.groupDeadline }
        (turn.world store)
  | .evaluateWith groupId limits =>
      Evaluation.readings turn.engine groupId limits (turn.world store)
  | _ => []

theorem readings_eq_nil {σ : Type} [Store σ] {turn : Turn} {store : σ}
    (keepsNone : turn.call.keepsReadings = false) : turn.readings store = [] := by
  obtain ⟨call, engine, supply, registry, clock, log⟩ := turn
  cases call with
  | record m value => cases keepsNone
  | evaluate groupId => cases keepsNone
  | evaluateWith groupId limits => cases keepsNone
  | _ => rfl

/-- The history of a metric after a run, given its history before. It begins anew whenever the
metric is not stored. -/
def history (id : EntityId) : List Turn → MemoryStore → List Recording → List Recording
  | [], _, earlier => earlier
  | turn :: rest, s, earlier =>
      history id rest (turn.next s)
        (if id ∈ s.metricIds then earlier ++ Recording.ofMetric id (turn.readings s) else [])

/-- The turn tracks executions under a policy and does not set their state. -/
def TracksBy (policy : TransitionPolicy) (turn : Turn) : Prop :=
  turn.engine.settings.transitionPolicy = policy ∧ turn.call.setsExecution = false

instance (policy : TransitionPolicy) (turn : Turn) : Decidable (turn.TracksBy policy) :=
  inferInstanceAs (Decidable (_ ∧ _))

end Turn

/-- A history is reached by any met reading under latching, and by the last one alone under
tracking. -/
def Recording.Reached (policy : TransitionPolicy) (rs : List Recording) : Prop :=
  match policy with
  | .latching => ∃ r ∈ rs, r.isMet = true
  | .tracking => ∃ r, rs.getLast? = some r ∧ r.isMet = true

/-- The execution is what a policy makes of a history. -/
structure MetricExecution.Follows (policy : TransitionPolicy) (rs : List Recording)
    (e : MetricExecution) : Prop where
  lastValue : e.lastValue = (rs.getLast?.map Recording.value).getD .zero
  status : e.status = .reached ↔ Recording.Reached policy rs

namespace Tracker

/-- A met reading is always reached. One that is not met is reached only by latching. -/
theorem transition_reached_iff (status : ExecutionStatus) (met : Bool)
    (policy : TransitionPolicy) :
    transition status met policy = .reached ↔
      met = true ∨ policy = .latching ∧ status = .reached := by
  cases status <;> cases met <;> cases policy <;> decide

end Tracker

namespace Recording

theorem not_reached_nil (policy : TransitionPolicy) : ¬Reached policy [] := by
  cases policy with
  | latching =>
      rintro ⟨r, member, _⟩
      cases member
  | tracking =>
      rintro ⟨r, last, _⟩
      cases last

theorem Reached.exists_met {policy : TransitionPolicy} {rs : List Recording}
    (reached : Reached policy rs) : ∃ r ∈ rs, r.isMet = true := by
  cases policy with
  | latching => exact reached
  | tracking =>
      obtain ⟨r, last, met⟩ := reached
      exact ⟨r, List.mem_of_getLast? last, met⟩

theorem reached_append (policy : TransitionPolicy) (rs : List Recording) (r : Recording) :
    Reached policy (rs ++ [r]) ↔ r.isMet = true ∨ policy = .latching ∧ Reached policy rs := by
  cases policy with
  | latching =>
      simp only [Reached, List.mem_append, List.mem_singleton, true_and]
      constructor
      · rintro ⟨some, member | rfl, met⟩
        · exact .inr ⟨some, member, met⟩
        · exact .inl met
      · rintro (met | ⟨earlier, member, met⟩)
        · exact ⟨r, .inr rfl, met⟩
        · exact ⟨earlier, .inl member, met⟩
  | tracking =>
      simp only [Reached, List.getLast?_append, List.getLast?_singleton, Option.some_or,
        Option.some.injEq, exists_eq_left', reduceCtorEq, false_and, or_false]

end Recording

namespace MetricExecution

theorem follows_nil_iff {policy : TransitionPolicy} {e : MetricExecution} :
    Follows policy [] e ↔ e.status = .active ∧ e.lastValue = .zero := by
  constructor
  · intro follows
    refine ⟨?_, follows.lastValue⟩
    cases status : e.status with
    | active => rfl
    | reached => exact absurd (follows.status.mp status) (Recording.not_reached_nil policy)
  · rintro ⟨status, lastValue⟩
    refine { lastValue := lastValue, status := iff_of_false ?_ (Recording.not_reached_nil policy) }
    rw [status]
    decide

theorem Follows.record {policy : TransitionPolicy} {rs : List Recording}
    {e : MetricExecution} (follows : Follows policy rs e) (r : Recording) :
    Follows policy (rs ++ [r]) (Recording.applyTo policy e r) := by
  refine { lastValue := ?_, status := ?_ }
  · rw [List.getLast?_append, List.getLast?_singleton, Option.some_or]
    rfl
  · have moved : (Recording.applyTo policy e r).status =
        Tracker.transition e.status r.isMet policy := rfl
    rw [moved, Tracker.transition_reached_iff, follows.status, Recording.reached_append]

theorem Follows.recordAll {policy : TransitionPolicy} {earlier rs : List Recording}
    {e : MetricExecution} (follows : Follows policy earlier e) :
    Follows policy (earlier ++ rs) (rs.foldl (Recording.applyTo policy) e) := by
  induction rs generalizing earlier e with
  | nil =>
      rw [List.append_nil]
      exact follows
  | cons r rest ih =>
      have recorded := ih (follows.record r)
      rw [List.append_assoc] at recorded
      exact recorded

end MetricExecution

namespace MemoryStore

/-! ### One turn -/

private theorem executionFor_evaluateWith (engine : Engine) (groupId : EntityId)
    (limits : QueryPhase.Limits) (world : World MemoryStore) (owned : Owned world.store)
    (id : EntityId) :
    (Evaluation.evaluateWith engine groupId limits world).2.store.executionFor id =
      (world.store.executionFor id).map fun e =>
        (Recording.ofMetric id (Evaluation.readings engine groupId limits world)).foldl
          (Recording.applyTo engine.settings.transitionPolicy) e := by
  rcases Evaluation.evaluateWith_cases engine groupId limits world with
    ⟨fault, after, failed, unchanged, none⟩ |
    ⟨g, outcomes, asked, -, -, unchanged, readings, tracked⟩
  · rw [failed, none, ← unchanged]
    exact Option.map_id'.symm
  · rw [tracked, readings, Evaluation.track_store, ← unchanged]
    rw [← unchanged] at owned
    exact executionFor_recordAll _ _ asked owned id

private theorem executionFor_recordOne (policy : TransitionPolicy) (m : Metric)
    (value : Binary64) (world : World MemoryStore) (owned : Owned world.store) (id : EntityId) :
    (Tracker.record policy m value world).2.store.executionFor id =
      (world.store.executionFor id).map fun e =>
        (Recording.ofMetric id
          (Evaluation.recorded policy [{ metric := m, value }] world)).foldl
            (Recording.applyTo policy) e := by
  have recorded := executionFor_recordAll policy [{ metric := m, value }] world owned id
  rw [Evaluation.recordAll_cons] at recorded
  rcases first : Tracker.record policy m value world with ⟨answer, after⟩
  simp only [first] at recorded
  cases answer <;> exact recorded

/-- The readings of a turn act on the execution of a metric that stays stored, and nothing
else in the turn does, unless the turn sets the state of executions. -/
theorem executionFor_next {s : MemoryStore} {turn : Turn} {policy : TransitionPolicy}
    (owned : Owned s) (tracks : turn.TracksBy policy) {id : EntityId}
    (stored : id ∈ s.metricIds) (stays : id ∈ (turn.next s).metricIds) :
    (turn.next s).executionFor id =
      (s.executionFor id).map fun e =>
        (Recording.ofMetric id (turn.readings s)).foldl (Recording.applyTo policy) e := by
  obtain ⟨rfl, setsNothing⟩ := tracks
  cases keeps : turn.call.keepsReadings with
  | true =>
      obtain ⟨call, engine, supply, registry, clock, log⟩ := turn
      cases call with
      | record m value => exact executionFor_recordOne _ m value _ owned id
      | evaluate groupId => exact executionFor_evaluateWith engine groupId _ _ owned id
      | evaluateWith groupId limits =>
          exact executionFor_evaluateWith engine groupId limits _ owned id
      | _ => cases keeps
  | false =>
      rcases owned.toLinked.executionFor_kept (turn.change s) with ⟨writes, -⟩ | kept
      · rw [setsNothing, keeps] at writes
        cases writes <;> contradiction
      · rw [kept id stored stays, Turn.readings_eq_nil keeps]
        exact Option.map_id'.symm

/-! ### Runs -/

theorem follows_history {s : MemoryStore} {turns : List Turn} {policy : TransitionPolicy}
    (owned : Owned s) (fresh : Turn.FreshRun turns s)
    (tracks : ∀ turn ∈ turns, turn.TracksBy policy) {id : EntityId} {earlier : List Recording}
    (follows : ∀ e, s.executionFor id = some e → e.Follows policy earlier) :
    ∀ e, (Turn.run turns s).executionFor id = some e →
      e.Follows policy (Turn.history id turns s earlier) := by
  -- The induction is on the turns, and the store and the history so far vary with them.
  induction turns generalizing s earlier with
  | nil => exact follows
  | cons turn rest ih =>
      have change := turn.change s
      have ownedNext := owned.change fresh.1 change
      refine ih ownedNext fresh.2 (fun later member => tracks later (List.mem_cons_of_mem _ member))
        ?_
      intro e found
      have stays : id ∈ (turn.next s).metricIds := ownedNext.toLinked.metricId_of_found found
      by_cases stored : id ∈ s.metricIds
      · rw [if_pos stored]
        obtain ⟨old, foundBefore⟩ := owned.toLinked.exists_execution stored
        rw [executionFor_next owned (tracks turn List.mem_cons_self) stored stays, foundBefore,
          Option.map_some] at found
        rw [← Option.some.inj found]
        exact (follows old foundBefore).recordAll
      · -- The turn has stored the metric, so the history begins here.
        rw [if_neg stored]
        obtain ⟨first, foundFirst, status, lastValue, -⟩ :=
          owned.toLinked.executionFor_new change stored stays
        rw [foundFirst] at found
        rw [← Option.some.inj found]
        exact MetricExecution.follows_nil_iff.mpr ⟨status, lastValue⟩

theorem subset_history {s : MemoryStore} {later : List Turn} {id : EntityId}
    (stored : Turn.StoredThroughout id later s) (earlier : List Recording) :
    earlier ⊆ Turn.history id later s earlier := by
  induction later generalizing s earlier with
  | nil => exact List.Subset.refl _
  | cons turn rest ih =>
      refine List.Subset.trans ?_ (ih stored.2 _)
      rw [if_pos stored.1]
      exact List.subset_append_left _ _

theorem history_append (id : EntityId) (turns later : List Turn) (s : MemoryStore)
    (earlier : List Recording) :
    Turn.history id (turns ++ later) s earlier =
      Turn.history id later (Turn.run turns s) (Turn.history id turns s earlier) := by
  induction turns generalizing s earlier with
  | nil => rfl
  | cons turn rest ih => exact ih (turn.next s) _

def latchedTurns : List Turn :=
  Canary.turns ++ [Canary.meetsLater, Canary.turn (.record (Canary.metric 3) .zero) 500]

/-- The execution of a stored metric is what the policy makes of the history of the metric.
Latching, it stays reached for as long as the metric is stored. -/
theorem execution_follows_history (policy : TransitionPolicy) (turns : List Turn)
    (fresh : Turn.FreshRun turns empty) (tracks : ∀ turn ∈ turns, turn.TracksBy policy)
    (id : EntityId) (stored : id ∈ (Turn.run turns empty).metricIds) :
    ∃ e, (Turn.run turns empty).executionFor id = some e ∧
      (Turn.history id turns empty [] = [] → e.status = .active ∧ e.lastValue = .zero) ∧
      (∀ last, (Turn.history id turns empty []).getLast? = some last →
        e.lastValue = last.value ∧
          (policy = .latching →
            (e.status = .reached ↔ ∃ r ∈ Turn.history id turns empty [], r.isMet = true)) ∧
          (policy = .tracking → (e.status = .reached ↔ last.isMet = true))) ∧
      (e.status = .reached → ∃ r ∈ Turn.history id turns empty [], r.isMet = true) ∧
      ∀ (earlier later : List Turn) (before : MetricExecution), turns = earlier ++ later →
        policy = .latching → Turn.StoredThroughout id later (Turn.run earlier empty) →
        (Turn.run earlier empty).executionFor id = some before →
        before.status = .reached → e.status = .reached := by
  have nothingBefore : ∀ e, empty.executionFor id = some e → e.Follows policy [] :=
    fun _ found => by cases found
  obtain ⟨e, found⟩ := (empty_owned.run fresh).toLinked.exists_execution stored
  have follows := follows_history empty_owned fresh tracks nothingBefore e found
  refine ⟨e, found, ?_, ?_, ?_, ?_⟩
  · intro none
    rw [none] at follows
    exact MetricExecution.follows_nil_iff.mp follows
  · intro last isLast
    refine ⟨?_, ?_, ?_⟩
    · rw [follows.lastValue, isLast]
      rfl
    · rintro rfl
      exact follows.status
    · rintro rfl
      rw [follows.status]
      simp only [Recording.Reached, isLast, Option.some.injEq, exists_eq_left']
  · intro reached
    exact (follows.status.mp reached).exists_met
  · rintro earlier later before rfl rfl throughout foundBefore reached
    have followsBefore :=
      follows_history empty_owned (Turn.freshRun_append.mp fresh).1
        (fun turn member => tracks turn (List.mem_append_left _ member)) nothingBefore before
        foundBefore
    -- What has been met before stays in the history, since the metric is never gone.
    obtain ⟨r, member, met⟩ := followsBefore.status.mp reached
    apply follows.status.mpr
    rw [history_append]
    exact ⟨r, subset_history throughout _ member, met⟩

theorem latched_follows_history :
    Turn.FreshRun latchedTurns empty ∧ (∀ turn ∈ latchedTurns, turn.TracksBy .latching) ∧
      .ofNat 3 ∈ (Turn.run latchedTurns empty).metricIds ∧
      ∃ e, (Turn.run latchedTurns empty).executionFor (.ofNat 3) = some e ∧
        e.lastValue = .zero ∧ e.status = .reached := by
  have fresh : Turn.FreshRun latchedTurns empty := by decide +kernel
  have tracks : ∀ turn ∈ latchedTurns, turn.TracksBy .latching := by decide +kernel
  have stored : .ofNat 3 ∈ (Turn.run latchedTurns empty).metricIds := by decide +kernel
  obtain ⟨e, found, -, last, -, -⟩ :=
    execution_follows_history .latching latchedTurns fresh tracks (.ofNat 3) stored
  have history : Turn.history (.ofNat 3) latchedTurns empty [] =
      [{ metric := Canary.metric 3, value := .ofMagnitude false 1 },
        { metric := Canary.metric 3, value := .zero }] := by decide +kernel
  rw [history] at last
  obtain ⟨lastValue, latching, -⟩ := last _ rfl
  refine ⟨fresh, tracks, stored, e, found, lastValue, (latching rfl).mpr ?_⟩
  exact ⟨_, List.mem_cons_self, by decide⟩

end MemoryStore

end RolloutWatch

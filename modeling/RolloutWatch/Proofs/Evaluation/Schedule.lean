import RolloutWatch.Proofs.Evaluation.Interleaving

/-!
A query phase that goes by the clock is one of the interleavings of its tasks. A round ends the
questions that are due one by one, and then lets tasks in one by one; the phase looks when a
round is over, and abandons what is left once it has concluded.

Main statement: `run_comes`.
-/

namespace RolloutWatch

def Running.question (r : Running) : QueryPhase.Question :=
  { outcome := r.outcome, kind := r.kind }

namespace QueryPhase

def Frame.clocked (engine : Engine) (findSource : EntityId → Except Error (Option DataSource))
    (limits : Limits) : Frame :=
  { engine, findSource, ask := fun _ => Driver.ask engine.network, limits }

/-- The tasks are where a phase by the clock has them when no task is about to call a driver. -/
structure Shows (p : Phase) (s : Tasks) : Prop where
  waiting : s.waiting = p.waiting
  admitted : s.admitted = []
  asked : s.asked = p.running.map Running.question
  finished : s.finished = p.finished
  registry : s.registry = p.registry
  log : s.log = p.log.reverse
  undecided : s.verdict = none

/-- A run of the tasks ends with what a phase reports. -/
def Comes (frame : Frame) (s : Tasks) (report : Report) : Prop :=
  ∃ last, Relation.ReflTransGen (Step frame) s last ∧ last.Over ∧
    last.verdict = some report.answer ∧ last.registry = report.registry ∧
    last.log = report.log

theorem Comes.after {frame : Frame} {s later : Tasks} {report : Report}
    (comes : Comes frame later report) (run : Relation.ReflTransGen (Step frame) s later) :
    Comes frame s report := by
  obtain ⟨last, rest, holds⟩ := comes
  exact ⟨last, run.trans rest, holds⟩

section

variable {engine : Engine} {findSource : EntityId → Except Error (Option DataSource)}
  {limits : Limits} {p : Phase} {s : Tasks}

theorem begin_eq (engine : Engine) (findSource : EntityId → Except Error (Option DataSource))
    (limits : Limits) (registry : DriverRegistry) (entry : Nat × Metric) :
    begin engine findSource registry entry.2 =
      match access engine findSource registry entry.2 with
      | (.error e, after) => (refused e, after)
      | (.ok granted, after) =>
          ((Frame.clocked engine findSource limits).begun entry granted, after) := by
  unfold begin access
  cases findSource entry.2.dataSourceId with
  | error e => rfl
  | ok found =>
      cases found with
      | none => rfl
      | some source =>
          simp only
          rcases registry.resolve source.pluginSrc with ⟨answer, after⟩
          cases answer with
          | error e => rfl
          | ok driver =>
              simp only
              cases engine.cipher.openConfig source.sealedData <;> rfl

/-! ### Ends of questions -/

theorem finish_due (frame : Frame) (now : Nat) (kept rest : List Running) (s : Tasks)
    (asked : s.asked = (kept ++ rest).map Running.question) :
    Relation.ReflTransGen (Step frame) s
      { s with
        asked := (kept ++ rest.filter fun r => now < r.due).map Running.question
        finished := ((rest.filter fun r => r.due ≤ now).map Running.outcome).reverse ++ s.finished
        log := s.log ++ (rest.filter fun r => r.due ≤ now).flatMap endEvent } := by
  induction rest generalizing kept s with
  | nil =>
      simp only [List.filter_nil, List.map_nil, List.reverse_nil, List.nil_append,
        List.flatMap_nil, List.append_nil] at asked ⊢
      rw [← asked]
  | cons r rest ih =>
      by_cases due : r.due ≤ now
      · have early : ¬now < r.due := Nat.not_lt.mpr due
        have split : s.asked =
            kept.map Running.question ++ r.question :: rest.map Running.question := by
          rw [asked, List.map_append, List.map_cons]
        refine Relation.ReflTransGen.head (.finish _ _ _ split) ?_
        have later := ih kept
          { s with
            asked := kept.map Running.question ++ rest.map Running.question
            finished := r.outcome :: s.finished
            log := s.log ++ r.question.endEvents } List.map_append.symm
        simp only [List.filter_cons, early, due, decide_true, decide_false, if_true,
          Bool.false_eq_true, if_false, List.map_cons, List.reverse_cons, List.append_assoc,
          List.singleton_append, List.flatMap_cons] at later ⊢
        exact later
      · have late : now < r.due := Nat.not_le.mp due
        have later := ih (kept ++ [r]) s (by rw [asked, List.append_assoc, List.singleton_append])
        simp only [List.filter_cons, late, due, decide_true, decide_false, if_true,
          Bool.false_eq_true, if_false, List.append_assoc, List.singleton_append] at later ⊢
        exact later

theorem Shows.finishDue (shows : Shows p s) (frame : Frame) (now : Nat) :
    ∃ after, Relation.ReflTransGen (Step frame) s after ∧
      Shows (QueryPhase.finishDue now p) after := by
  have run := finish_due frame now [] p.running s shows.asked
  refine ⟨_, run, ?_⟩
  constructor
  · exact shows.waiting
  · exact shows.admitted
  · rfl
  · simp only [QueryPhase.finishDue, shows.finished]
  · exact shows.registry
  · simp only [QueryPhase.finishDue, shows.log, List.reverse_append, List.reverse_reverse]
  · exact shows.undecided

/-! ### Beginnings of questions -/

theorem reverse_beginEvent (kind : Option String) (m : Metric) :
    (beginEvent kind m).reverse = beginEvent kind m := by
  cases kind <;> rfl

theorem reverse_endEvent (r : Running) : (endEvent r).reverse = endEvent r := by
  unfold endEvent
  cases r.kind <;> rfl

/-- The first of the waiting tasks takes a place, and ends or goes on to its question. -/
theorem Shows.enter {entry : Nat × Metric} {rest : List (Nat × Metric)}
    (shows : Shows { p with waiting := entry :: rest } s)
    (place : p.running.length < engine.settings.permits) (now : Nat) :
    ∃ after, Relation.ReflTransGen (Step (.clocked engine findSource limits)) s after ∧
      Shows { QueryPhase.enter engine findSource now entry.1 entry.2 p with waiting := rest }
        after := by
  have free : s.admitted.length + s.asked.length <
      (Frame.clocked engine findSource limits).engine.settings.permits := by
    rw [shows.admitted, shows.asked, List.length_map, List.length_nil, Nat.zero_add]
    exact place
  have admission : Step (.clocked engine findSource limits) s
      { s with waiting := rest, admitted := [entry] } := by
    have step := Step.grant [] rest entry shows.waiting free
    rw [shows.admitted] at step
    exact step
  have began := begin_eq engine findSource limits p.registry entry
  have here : s.registry = p.registry := shows.registry
  unfold QueryPhase.enter
  rcases granted : access engine findSource p.registry entry.2 with ⟨answer, registry⟩
  rw [granted] at began
  cases answer with
  | error e =>
      have refusal : (access engine findSource s.registry entry.2).1 = .error e := by
        rw [here, granted]
      have refused := (Relation.ReflTransGen.single admission).tail
        (.refuse [] [] entry e rfl refusal)
      refine ⟨_, refused, ?_⟩
      rw [began]
      constructor
      · rfl
      · rfl
      · exact shows.asked
      · exact congrArg _ shows.finished
      · simp only [Frame.clocked, here, granted, QueryPhase.refused]
      · exact shows.log
      · exact shows.undecided
  | ok line =>
      have ready : (access engine findSource s.registry entry.2).1 = .ok line := by
        rw [here, granted]
      have called := (Relation.ReflTransGen.single admission).tail
        (.call [] [] entry line rfl ready)
      have reached : (access engine findSource s.registry entry.2).2 = registry := by
        rw [here, granted]
      simp only at began
      rw [began]
      simp only
      cases timed : ((Frame.clocked engine findSource limits).begun entry line).time with
      | some time =>
          refine ⟨_, called, ?_⟩
          constructor
          · rfl
          · rfl
          · simp only [shows.asked, List.map_append, List.map_cons, List.map_nil]
            rfl
          · exact shows.finished
          · exact reached
          · simp only [shows.log, List.reverse_append, reverse_beginEvent]
            rfl
          · exact shows.undecided
      | none =>
          -- A question without a time ends before anything else moves.
          have finished := called.tail (.finish _ [] _ rfl)
          refine ⟨_, finished, ?_⟩
          constructor
          · rfl
          · rfl
          · simp only [List.append_nil]
            exact shows.asked
          · exact congrArg _ shows.finished
          · exact reached
          · simp only [shows.log, List.reverse_append, reverse_beginEvent, reverse_endEvent,
              List.append_assoc]
            rfl
          · exact shows.undecided

theorem Shows.enterAll {queue : List (Nat × Metric)}
    (shows : Shows { p with waiting := queue } s) (now : Nat) :
    ∃ after, Relation.ReflTransGen (Step (.clocked engine findSource limits)) s after ∧
      Shows (QueryPhase.enterAll engine findSource now queue p) after := by
  induction queue generalizing p s with
  | nil => exact ⟨s, .refl, shows⟩
  | cons entry rest ih =>
      unfold QueryPhase.enterAll
      by_cases place : p.running.length < engine.settings.permits
      · rw [if_pos place]
        obtain ⟨entered, first, showsEntered⟩ := shows.enter place now
        obtain ⟨after, others, showsAfter⟩ := ih showsEntered
        exact ⟨after, first.trans others, showsAfter⟩
      · rw [if_neg place]
        exact ⟨s, .refl, shows⟩

/-- All that happens at one time is a run of the tasks. -/
theorem Shows.round (shows : Shows p s) (engine : Engine)
    (findSource : EntityId → Except Error (Option DataSource)) (limits : Limits) (now : Nat) :
    ∃ after, Relation.ReflTransGen (Step (.clocked engine findSource limits)) s after ∧
      Shows (QueryPhase.round engine findSource now p) after := by
  obtain ⟨ended, first, showsEnded⟩ :=
    shows.finishDue (.clocked engine findSource limits) now
  obtain ⟨after, others, showsAfter⟩ :=
    Shows.enterAll (p := QueryPhase.finishDue now p) showsEnded now
  exact ⟨after, first.trans others, showsAfter⟩

/-! ### Conclusions -/

theorem firstFailure_eq_some {e : Error} (failed : firstFailure? p = some e) :
    ∃ outcome ∈ p.finished, outcome.answer = .error e := by
  obtain ⟨outcome, member, fault⟩ := List.exists_of_findSome?_eq_some failed
  refine ⟨outcome, List.mem_reverse.mp member, ?_⟩
  cases answered : outcome.answer with
  | ok result =>
      rw [answered] at fault
      cases fault
  | error other =>
      rw [answered] at fault
      cases fault
      rfl

theorem firstFailure_eq_none (none : firstFailure? p = none) :
    ∀ outcome ∈ p.finished, outcome.answer.isOk = true := by
  intro outcome member
  have tolerated := List.findSome?_eq_none_iff.mp none outcome (List.mem_reverse.mpr member)
  cases answered : outcome.answer with
  | ok result => rfl
  | error e =>
      rw [answered] at tolerated
      cases tolerated

theorem isDone_iff : isDone p = true ↔ p.waiting = [] ∧ p.running = [] := by
  unfold isDone
  rw [Bool.and_eq_true, List.isEmpty_iff, List.isEmpty_iff]

theorem isCancelled_given {now : Nat} (cancelled : isCancelled limits now = true) :
    limits.cancelAfter.isSome = true := by
  unfold isCancelled at cancelled
  cases given : limits.cancelAfter with
  | none =>
      rw [given] at cancelled
      cases cancelled
  | some time => rfl

theorem not_done {now : Nat} (looked : verdict? engine limits now p = none) :
    ¬(p.waiting = [] ∧ p.running = []) := by
  rw [← isDone_iff]
  intro done
  unfold verdict? at looked
  rw [done] at looked
  split at looked
  · cases looked
  · split at looked <;> cases looked

/-- What the evaluation concludes when it looks at a phase, it may conclude of the tasks. -/
theorem Shows.verdict (shows : Shows p s) {now : Nat} {answer : Except Error (List Outcome)}
    (verdict : verdict? engine limits now p = some answer) :
    Concludes (.clocked engine findSource limits) s answer := by
  unfold verdict? at verdict
  by_cases cancelled : isCancelled limits now = true
  · rw [if_pos cancelled] at verdict
    cases verdict
    exact .cancelled (isCancelled_given cancelled)
  · rw [if_neg cancelled] at verdict
    have done (tolerated : engine.settings.failurePolicy = .bestEffort ∨
          ∀ outcome ∈ p.finished, outcome.answer.isOk = true)
        (given : (if isDone p then some (Except.ok (inGroupOrder p.finished)) else none) =
          some answer) :
        Concludes (.clocked engine findSource limits) s answer := by
      by_cases ended : isDone p = true
      · rw [if_pos ended] at given
        cases given
        obtain ⟨waiting, running⟩ := isDone_iff.mp ended
        rw [← shows.finished] at tolerated ⊢
        refine .done (shows.waiting.trans waiting) shows.admitted ?_ tolerated
        rw [shows.asked, running, List.map_nil]
      · rw [if_neg ended] at given
        cases given
    cases policy : engine.settings.failurePolicy with
    | bestEffort =>
        rw [policy] at verdict
        exact done (.inl policy) verdict
    | failFast =>
        rw [policy] at verdict
        cases failed : firstFailure? p with
        | none =>
            rw [failed] at verdict
            exact done (.inr (firstFailure_eq_none failed)) verdict
        | some e =>
            rw [failed] at verdict
            cases verdict
            obtain ⟨outcome, ended, fault⟩ := firstFailure_eq_some failed
            rw [← shows.finished] at ended
            exact .failed policy ended fault

theorem deadlineBefore_given {time : Nat} {deadline : Elapsed}
    (passed : deadlineBefore? limits time = some deadline) : limits.deadline = some deadline :=
  (Option.filter_eq_some_iff.mp passed).1

theorem interruption_concludes (engine : Engine)
    (findSource : EntityId → Except Error (Option DataSource)) (s : Tasks) {due time : Nat}
    {e : Error} (interrupted : interruption? limits due = some (time, e)) :
    Concludes (.clocked engine findSource limits) s (.error e) := by
  have cancelled {cancel : Nat} (before : cancelledBefore? limits due = some cancel) :
      Concludes (.clocked engine findSource limits) s (.error .cancelled) := by
    have given := (Option.filter_eq_some_iff.mp before).1
    exact .cancelled (by rw [Frame.clocked, given]; rfl)
  have expired {deadline : Elapsed} (before : deadlineBefore? limits due = some deadline) :
      Concludes (.clocked engine findSource limits) s (.error (.deadlineExceeded deadline)) :=
    .expired (deadlineBefore_given before)
  unfold interruption? at interrupted
  cases cancel : cancelledBefore? limits due with
  | none =>
      cases passed : deadlineBefore? limits due with
      | none =>
          rw [cancel, passed] at interrupted
          cases interrupted
      | some deadline =>
          rw [cancel, passed] at interrupted
          cases interrupted
          exact expired passed
  | some given =>
      cases passed : deadlineBefore? limits due with
      | none =>
          rw [cancel, passed] at interrupted
          cases interrupted
          exact cancelled cancel
      | some deadline =>
          rw [cancel, passed] at interrupted
          simp only at interrupted
          split at interrupted
          · cases interrupted
            exact cancelled cancel
          · cases interrupted
            exact expired passed

/-- After a verdict, the tasks that are left are abandoned one by one. -/
theorem abandon (frame : Frame) (s : Tasks) (concluded : s.verdict.isSome = true)
    (admitted : s.admitted = []) :
    ∃ last, Relation.ReflTransGen (Step frame) s last ∧ last.Over ∧ last.verdict = s.verdict ∧
      last.registry = s.registry ∧ last.log = s.log ++ s.asked.flatMap Question.endEvents := by
  induction waits : s.waiting generalizing s with
  | cons entry rest ih =>
      obtain ⟨last, run, complete, verdict, registry, log⟩ :=
        ih { s with waiting := rest, abandoned := entry :: s.abandoned } concluded admitted rfl
      exact ⟨last, run.head (.leave [] rest entry concluded waits), complete, verdict, registry,
        log⟩
  | nil =>
      induction asks : s.asked generalizing s with
      | nil =>
          refine ⟨s, .refl, ⟨waits, admitted, asks, concluded⟩, rfl, rfl, ?_⟩
          rw [List.flatMap_nil, List.append_nil]
      | cons q rest ih =>
          obtain ⟨last, run, complete, verdict, registry, log⟩ := ih
            { s with
              asked := rest
              abandoned := q.outcome.entry :: s.abandoned
              log := s.log ++ q.endEvents } concluded admitted waits rfl
          refine ⟨last, run.head (.abort [] rest q concluded asks), complete, verdict, registry, ?_⟩
          rw [log, List.flatMap_cons, List.append_assoc]

/-- A phase that concludes reports what its tasks come to. -/
theorem Shows.conclude (shows : Shows p s) (now : Nat) {answer : Except Error (List Outcome)}
    (concludes : Concludes (.clocked engine findSource limits) s answer) :
    Comes (.clocked engine findSource limits) s (QueryPhase.conclude now p answer) := by
  obtain ⟨last, run, complete, verdict, registry, log⟩ :=
    abandon (.clocked engine findSource limits) { s with verdict := some answer } rfl
      shows.admitted
  refine ⟨last, run.head (.conclude answer shows.undecided concludes), complete, verdict,
    registry.trans shows.registry, log.trans ?_⟩
  simp only [QueryPhase.conclude, shows.log, shows.asked, List.flatMap_map, List.reverse_append,
    List.reverse_reverse]
  rfl

/-! ### The whole phase -/

theorem enter_finished (engine : Engine)
    (findSource : EntityId → Except Error (Option DataSource)) (now index : Nat) (m : Metric)
    (p : Phase) :
    p.finished.length ≤ (enter engine findSource now index m p).finished.length := by
  unfold enter
  rcases begin engine findSource p.registry m with ⟨begun, registry⟩
  simp only
  cases begun.time with
  | some time => exact Nat.le_refl _
  | none => exact Nat.le_succ _

theorem enterAll_finished (engine : Engine)
    (findSource : EntityId → Except Error (Option DataSource)) (now : Nat)
    (queue : List (Nat × Metric)) (p : Phase) :
    p.finished.length ≤ (enterAll engine findSource now queue p).finished.length := by
  induction queue generalizing p with
  | nil => exact Nat.le_refl _
  | cons entry rest ih =>
      unfold enterAll
      split
      · exact Nat.le_trans (enter_finished engine findSource now entry.1 entry.2 p) (ih _)
      · exact Nat.le_refl _

theorem exists_due {due : Nat} (next : nextDue? p = some due) : ∃ r ∈ p.running, r.due = due :=
  List.mem_map.mp (List.min?_mem next)

theorem round_shorter (engine : Engine)
    (findSource : EntityId → Except Error (Option DataSource)) {due : Nat}
    (next : nextDue? p = some due) :
    (round engine findSource due p).waiting.length +
        (round engine findSource due p).running.length <
      p.waiting.length + p.running.length := by
  have all := (round_entries engine findSource due p).1.length_eq
  have ended : p.finished.length < (finishDue due p).finished.length := by
    obtain ⟨r, runs, onTime⟩ := exists_due next
    have isDue : r ∈ p.running.filter fun r => r.due ≤ due :=
      List.mem_filter.mpr ⟨runs, decide_eq_true (Nat.le_of_eq onTime)⟩
    have some := List.length_pos_of_mem isDue
    simp only [finishDue, List.length_append, List.length_reverse, List.length_map]
    omega
  have more := enterAll_finished engine findSource due (finishDue due p).waiting
    (finishDue due p)
  have same : (round engine findSource due p).finished =
      (enterAll engine findSource due (finishDue due p).waiting (finishDue due p)).finished := rfl
  simp only [entries, taken, List.length_append, List.length_map] at all
  rw [same] at all
  omega

/-- From a look that concludes nothing, a phase goes on as its tasks do. There is fuel enough, since
every turn ends a query. -/
theorem advance_comes {fuel now : Nat} (shows : Shows p s)
    (idle : p.running = [] → p.waiting = []) (looked : verdict? engine limits now p = none)
    (enough : p.waiting.length + p.running.length ≤ fuel) :
    Comes (.clocked engine findSource limits) s
      (advance engine findSource limits fuel now p) := by
  have runs : p.running ≠ [] := fun none => not_done looked ⟨idle none, none⟩
  induction fuel generalizing now p s with
  | zero =>
      have none : p.running = [] := List.length_eq_zero_iff.mp (by omega)
      exact absurd none runs
  | succ fuel ih =>
      unfold advance
      cases next : nextDue? p with
      | none => exact absurd (List.map_eq_nil_iff.mp (List.min?_eq_none_iff.mp next)) runs
      | some due =>
          simp only
          cases interrupted : interruption? limits due with
          | some interruption =>
              exact shows.conclude _ (interruption_concludes engine findSource s interrupted)
          | none =>
              obtain ⟨after, run, showsAfter⟩ := shows.round engine findSource limits due
              simp only
              cases verdict : verdict? engine limits due (round engine findSource due p) with
              | some answer => exact (showsAfter.conclude _ (showsAfter.verdict verdict)).after run
              | none =>
                  have shorter := round_shorter engine findSource next
                  have idleAfter := (round_entries engine findSource due p).2
                  refine (ih showsAfter idleAfter verdict (by omega) ?_).after run
                  exact fun none => not_done verdict ⟨idleAfter none, none⟩

theorem number_length (index : Nat) (metrics : List Metric) :
    (number index metrics).length = metrics.length := by
  rw [← List.length_map (f := Prod.snd), number_metrics]

/-- The phase by the clock is one of the interleavings of its tasks, run to its end. -/
theorem run_comes (engine : Engine) (findSource : EntityId → Except Error (Option DataSource))
    (limits : Limits) (registry : DriverRegistry) (metrics : List Metric) :
    Comes (.clocked engine findSource limits) (.start registry metrics)
      (run engine findSource limits registry metrics) := by
  have shows : Shows
      { waiting := number 0 metrics, running := [], finished := [], registry, log := [] }
      (.start registry metrics) :=
    ⟨rfl, rfl, rfl, rfl, rfl, rfl, rfl⟩
  unfold run
  simp only
  cases first : verdict? engine limits 0
      { waiting := number 0 metrics, running := [], finished := [], registry, log := [] } with
  | some answer => exact shows.conclude _ (shows.verdict first)
  | none =>
      simp only
      cases passed : deadlineBefore? limits 0 with
      | some deadline => exact shows.conclude _ (.expired (deadlineBefore_given passed))
      | none =>
          simp only
          obtain ⟨after, begun, showsAfter⟩ := shows.round engine findSource limits 0
          obtain ⟨kept, idle⟩ := round_entries engine findSource 0
            { waiting := number 0 metrics, running := [], finished := [], registry, log := [] }
          split
          · rename_i verdict
            exact (showsAfter.conclude _ (showsAfter.verdict verdict)).after begun
          · rename_i verdict
            refine (advance_comes showsAfter idle verdict ?_).after begun
            have count := kept.length_eq
            simp only [entries, taken, List.length_append, List.length_map, List.length_nil,
              number_length] at count
            omega

end

end QueryPhase

end RolloutWatch

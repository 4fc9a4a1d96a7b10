import RolloutWatch.Proofs.Evaluation.Tasks

/-!
The query phase without its clock. The runs of the steps of its tasks are all the interleavings
that there are, whatever the delays of the drivers and the number of places.

Main statements: `Reaches.sound` says what holds of whatever the steps lead to, `Sound.outcomes`
and `Sound.error_cases` what the evaluation can conclude there, `Step.shrinks` and `exists_step` that
the steps end, and not before a verdict.
-/

namespace RolloutWatch.QueryPhase

variable {frame : Frame} {registry : DriverRegistry} {metrics : List Metric} {s after : Tasks}

/-! ### Verdicts -/

theorem Concludes.step {answer : Except Error (List Outcome)}
    (concludes : Concludes frame s answer) (step : Step frame s after) :
    Concludes frame after answer := by
  cases concludes with
  | done waiting admitted asked tolerated =>
      -- Nothing is left that could move.
      have nothing {α : Type} {front back : List α} {a : α} (is : [] = front ++ a :: back) :
          False := List.append_ne_nil_of_right_ne_nil front (List.cons_ne_nil a back) is.symm
      cases step with
      | grant front back entry waits place => exact (nothing (waiting.symm.trans waits)).elim
      | refuse front back entry e admits failed =>
          exact (nothing (admitted.symm.trans admits)).elim
      | call front back entry granted admits ready =>
          exact (nothing (admitted.symm.trans admits)).elim
      | finish front back q asks => exact (nothing (asked.symm.trans asks)).elim
      | conclude answer looks others => exact .done waiting admitted asked tolerated
      | leave front back entry concluded waits => exact (nothing (waiting.symm.trans waits)).elim
      | vacate front back entry concluded admits =>
          exact (nothing (admitted.symm.trans admits)).elim
      | abort front back q concluded asks => exact (nothing (asked.symm.trans asks)).elim
  | failed policy ended fault =>
      cases step with
      | grant front back entry waits place => exact .failed policy ended fault
      | refuse front back entry e admits failed =>
          exact .failed policy (List.mem_cons_of_mem _ ended) fault
      | call front back entry granted admits ready => exact .failed policy ended fault
      | finish front back q asks => exact .failed policy (List.mem_cons_of_mem _ ended) fault
      | conclude answer looks others => exact .failed policy ended fault
      | leave front back entry concluded waits => exact .failed policy ended fault
      | vacate front back entry concluded admits => exact .failed policy ended fault
      | abort front back q concluded asks => exact .failed policy ended fault
  | cancelled given => exact .cancelled given
  | expired given => exact .expired given

/-- A verdict stays what the evaluation may conclude, and a task is abandoned only after a verdict
that is an error. -/
structure Concluded (frame : Frame) (s : Tasks) : Prop where
  verdict : ∀ answer, s.verdict = some answer → Concludes frame s answer
  abandoned : s.abandoned ≠ [] → ∃ e, s.verdict = some (.error e)

theorem Concluded.error (concluded : Concluded frame s) (given : s.verdict.isSome = true)
    (left : ¬(s.waiting = [] ∧ s.admitted = [] ∧ s.asked = [])) :
    ∃ e, s.verdict = some (.error e) := by
  obtain ⟨answer, verdict⟩ := Option.isSome_iff_exists.mp given
  cases answer with
  | error e => exact ⟨e, verdict⟩
  | ok outcomes =>
      cases concluded.verdict _ verdict with
      | done waiting admitted asked tolerated => exact absurd ⟨waiting, admitted, asked⟩ left

theorem Concluded.step (concluded : Concluded frame s) (step : Step frame s after) :
    Concluded frame after := by
  have kept (answer : Except Error (List Outcome)) (verdict : s.verdict = some answer) :
      Concludes frame after answer := (concluded.verdict answer verdict).step step
  cases step with
  | grant front back entry waits place => exact ⟨kept, concluded.abandoned⟩
  | refuse front back entry e admitted failed => exact ⟨kept, concluded.abandoned⟩
  | call front back entry granted admitted ready => exact ⟨kept, concluded.abandoned⟩
  | finish front back q asked => exact ⟨kept, concluded.abandoned⟩
  | conclude answer looks concludes =>
      refine ⟨fun other same => ?_, fun abandoned => ?_⟩
      · cases same
        exact concludes.step (.conclude answer looks concludes)
      · obtain ⟨e, verdict⟩ := concluded.abandoned abandoned
        rw [looks] at verdict
        cases verdict
  | leave front back entry given waits =>
      refine ⟨kept, fun _ => concluded.error given fun nothing => ?_⟩
      rw [waits] at nothing
      exact List.append_ne_nil_of_right_ne_nil front (List.cons_ne_nil entry back) nothing.1
  | vacate front back entry given admitted =>
      refine ⟨kept, fun _ => concluded.error given fun nothing => ?_⟩
      rw [admitted] at nothing
      exact List.append_ne_nil_of_right_ne_nil front (List.cons_ne_nil entry back) nothing.2.1
  | abort front back q given asked =>
      refine ⟨kept, fun _ => concluded.error given fun nothing => ?_⟩
      rw [asked] at nothing
      exact List.append_ne_nil_of_right_ne_nil front (List.cons_ne_nil q back) nothing.2.2

/-! ### Runs -/

/-- What holds of the tasks of a phase however they have moved. -/
structure Sound (frame : Frame) (registry : DriverRegistry) (metrics : List Metric)
    (s : Tasks) : Prop where
  entries : s.entries.Perm (number 0 metrics)
  places : s.held ≤ frame.engine.settings.permits
  answered : Answered frame registry s
  called : Called frame registry metrics s
  logged : Logged frame s
  concluded : Concluded frame s

theorem start_sound (frame : Frame) (registry : DriverRegistry) (metrics : List Metric) :
    Sound frame registry metrics (.start registry metrics) where
  entries := by
    simp only [Tasks.entries, Tasks.start, List.map_nil, List.append_nil]
    exact List.Perm.refl _
  places := Nat.zero_le _
  answered :=
    { answers := rfl
      asked := fun _ member => absurd member List.not_mem_nil
      finished := fun _ member => absurd member List.not_mem_nil }
  called :=
    { once := by
        simp only [Tasks.start, List.append_nil]
        exact List.Subperm.refl _
      resolved := fun _ member => absurd member List.not_mem_nil
      asked := fun _ member => absurd member List.not_mem_nil
      finished := fun _ member => absurd member List.not_mem_nil }
  logged :=
    { inHand := fun _ => rfl
      peak := fun _ => Int.natCast_nonneg _
      begun := List.nil_sublist _ }
  concluded :=
    { verdict := fun _ verdict => by cases verdict
      abandoned := fun abandoned => absurd rfl abandoned }

theorem Sound.step (sound : Sound frame registry metrics s) (step : Step frame s after) :
    Sound frame registry metrics after where
  entries := step.entries.trans sound.entries
  places := step.held sound.places
  answered := sound.answered.step step
  called := sound.called.step sound.answered step
  logged := sound.logged.step sound.places step
  concluded := sound.concluded.step step

theorem Reaches.sound (reached : Reaches frame registry metrics s) :
    Sound frame registry metrics s := by
  induction reached with
  | refl => exact start_sound frame registry metrics
  | tail earlier step ih => exact ih.step step

/-! ### Ends of runs -/

/-- What is left of a phase: at most so many moves. -/
def Tasks.left (s : Tasks) : Nat :=
  3 * s.waiting.length + 2 * s.admitted.length + s.asked.length +
    if s.verdict.isSome then 0 else 1

/-- Every step leaves less, so that no run goes on for ever. -/
theorem Step.shrinks (step : Step frame s after) : after.left < s.left := by
  unfold Tasks.left
  cases step with
  | grant front back entry waits place =>
      simp only [waits, List.length_append, List.length_cons, List.length_nil]
      omega
  | refuse front back entry e admitted failed =>
      simp only [admitted, List.length_append, List.length_cons]
      omega
  | call front back entry granted admitted ready =>
      simp only [admitted, List.length_append, List.length_cons, List.length_nil]
      omega
  | finish front back q asked =>
      simp only [asked, List.length_append, List.length_cons]
      omega
  | conclude answer looks concludes =>
      simp only [looks, Option.isSome_none, Option.isSome_some]
      exact Nat.lt_succ_self _
  | leave front back entry concluded waits =>
      simp only [waits, List.length_append, List.length_cons]
      omega
  | vacate front back entry concluded admitted =>
      simp only [admitted, List.length_append, List.length_cons]
      omega
  | abort front back q concluded asked =>
      simp only [asked, List.length_append, List.length_cons]
      omega

theorem exists_verdict (frame : Frame) (waiting : s.waiting = []) (admitted : s.admitted = [])
    (asked : s.asked = []) : ∃ answer, Concludes frame s answer := by
  cases policy : frame.engine.settings.failurePolicy with
  | bestEffort => exact ⟨_, .done waiting admitted asked (.inl policy)⟩
  | failFast =>
      by_cases tolerated : ∀ outcome ∈ s.finished, outcome.answer.isOk = true
      · exact ⟨_, .done waiting admitted asked (.inr tolerated)⟩
      · simp only [not_forall] at tolerated
        obtain ⟨outcome, ended, notOk⟩ := tolerated
        cases fault : outcome.answer with
        | ok result =>
            rw [fault] at notOk
            exact absurd rfl notOk
        | error e => exact ⟨_, .failed policy ended fault⟩

/-- No task waits for ever: as long as a phase is not over, something can move. -/
theorem exists_step (frame : Frame) (unfinished : ¬s.Over) : ∃ after, Step frame s after := by
  cases asked : s.asked with
  | cons q rest => exact ⟨_, .finish [] rest q asked⟩
  | nil =>
      cases admitted : s.admitted with
      | cons entry rest =>
          cases answer : (access frame.engine frame.findSource s.registry entry.2).1 with
          | error e => exact ⟨_, .refuse [] rest entry e admitted answer⟩
          | ok granted => exact ⟨_, .call [] rest entry granted admitted answer⟩
      | nil =>
          cases waiting : s.waiting with
          | cons entry rest =>
              refine ⟨_, .grant [] rest entry waiting ?_⟩
              rw [admitted, asked]
              exact Nat.le_max_right _ _
          | nil =>
              cases verdict : s.verdict with
              | some answer =>
                  have complete : s.Over := ⟨waiting, admitted, asked, by rw [verdict]; rfl⟩
                  exact absurd complete unfinished
              | none =>
                  obtain ⟨answer, concludes⟩ := exists_verdict frame waiting admitted asked
                  exact ⟨_, .conclude answer verdict concludes⟩

/-- Every run can be ended. -/
theorem exists_over (frame : Frame) (s : Tasks) :
    ∃ last, Relation.ReflTransGen (Step frame) s last ∧ last.Over := by
  induction measured : s.left using Nat.strongRecOn generalizing s with
  | ind count ih =>
      by_cases complete : s.Over
      · exact ⟨s, .refl, complete⟩
      · obtain ⟨next, step⟩ := exists_step frame complete
        obtain ⟨last, run, ended⟩ := ih next.left (measured ▸ step.shrinks) next rfl
        exact ⟨last, run.head step, ended⟩

/-! ### Verdicts of runs -/

/-- A phase that concludes without an error has the outcome of each metric, in their order, and has
called the driver of each metric that has access to one. -/
theorem Sound.outcomes (sound : Sound frame registry metrics s) {outcomes : List Outcome}
    (verdict : s.verdict = some (.ok outcomes)) :
    outcomes = (number 0 metrics).map (frame.outcome registry) ∧
      (frame.engine.settings.failurePolicy = .bestEffort ∨
        ∀ outcome ∈ outcomes, outcome.answer.isOk = true) ∧
      ∀ entry ∈ number 0 metrics,
        (entry ∈ s.called ↔ frame.resolves registry entry.2 = true) := by
  have abandoned : s.abandoned = [] := by
    by_contra some
    obtain ⟨e, other⟩ := sound.concluded.abandoned some
    rw [verdict] at other
    cases other
  cases sound.concluded.verdict _ verdict with
  | done waiting admitted asked tolerated =>
      have ended : (s.finished.map Outcome.entry).Perm (number 0 metrics) := by
        have all := sound.entries
        simp only [Tasks.entries, waiting, admitted, asked, abandoned, List.map_nil,
          List.nil_append, List.append_nil] at all
        exact all
      have own : ∀ outcome ∈ inGroupOrder s.finished,
          outcome = frame.outcome registry outcome.entry := fun outcome member =>
        sound.answered.finished outcome ((List.mergeSort_perm _ _).subset member)
      refine ⟨?_, ?_, ?_⟩
      · rw [← inGroupOrder_entries ended, List.map_map]
        exact (List.map_id _).symm.trans (List.map_congr_left own)
      · refine tolerated.imp_right fun all outcome member => ?_
        exact all outcome ((List.mergeSort_perm _ _).subset member)
      · intro entry member
        constructor
        · exact sound.called.resolved entry
        · intro resolves
          obtain ⟨outcome, finished, rfl⟩ := List.mem_map.mp (ended.symm.subset member)
          exact sound.called.finished outcome finished resolves

/-- A phase that concludes with an error has been interrupted, or it fails fast with the error of one
of its metrics. -/
theorem Sound.error_cases (sound : Sound frame registry metrics s) {e : Error}
    (verdict : s.verdict = some (.error e)) :
    (frame.limits.cancelAfter.isSome = true ∧ e = .cancelled) ∨
      (∃ deadline, frame.limits.deadline = some deadline ∧ e = .deadlineExceeded deadline) ∨
      frame.engine.settings.failurePolicy = .failFast ∧
        ∃ entry ∈ number 0 metrics, frame.answer registry entry = .error e := by
  cases sound.concluded.verdict _ verdict with
  | failed policy ended fault =>
      rename_i outcome
      refine .inr (.inr ⟨policy, outcome.entry, ?_, ?_⟩)
      · refine sound.entries.subset ?_
        unfold Tasks.entries
        exact List.mem_append_left _ (List.mem_append_right _ (List.mem_map_of_mem ended))
      · have own := congrArg Outcome.answer (sound.answered.finished outcome ended)
        exact own.symm.trans fault
  | cancelled given => exact .inl ⟨given, rfl⟩
  | expired given => exact .inr (.inl ⟨_, given, rfl⟩)

end RolloutWatch.QueryPhase

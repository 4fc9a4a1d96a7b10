import RolloutWatch.Proofs.Evaluation.Access
import Mathlib.Data.List.Perm.Subperm
import Mathlib.Logic.Relation

/-!
The tasks of a query phase. Each metric of a group has one: it waits for a place, is admitted, puts
its question to the driver, and ends when the question does. Any task that can move may be the
next to move, questions may end in any order, and the evaluation may look at any time.

A step moves one task, and what it says of the tasks is kept by each of the steps: no task is lost,
no more places are taken than there are, every task comes to its own answer, no driver is called
twice for a metric, and the log counts what is in hand.
-/

namespace RolloutWatch

namespace QueryEvent

/-- How many questions a kind of driver has in hand after a log. -/
def inHand (kind : String) : List QueryEvent → Int
  | [] => 0
  | event :: rest => event.change kind + inHand kind rest

def begun? : QueryEvent → Option EntityId
  | .began _ id => some id
  | .ended _ _ => none

theorem inHand_append (kind : String) (log later : List QueryEvent) :
    inHand kind (log ++ later) = inHand kind log + inHand kind later := by
  induction log with
  | nil => exact (Int.zero_add _).symm
  | cons event rest ih =>
      simp only [List.cons_append, inHand, ih]
      omega

theorem inHand_singleton (kind : String) (event : QueryEvent) :
    inHand kind [event] = event.change kind :=
  Int.add_zero _

theorem peakFrom_concat (kind : String) (start : Int) (log : List QueryEvent)
    (event : QueryEvent) :
    peakFrom kind start (log ++ [event]) =
      max (peakFrom kind start log) (start + inHand kind log + event.change kind) := by
  induction log generalizing start with
  | nil => simp only [List.nil_append, peakFrom, inHand, Int.add_zero]
  | cons first rest ih =>
      simp only [List.cons_append, peakFrom, inHand]
      rw [ih]
      omega

end QueryEvent

namespace QueryPhase

/-! ### Tasks -/

/-- A question that a driver has in hand, with the outcome that it comes to. -/
structure Question where
  outcome : Outcome
  kind : Option String

def Question.endEvents (q : Question) : List QueryEvent :=
  match q.kind with
  | some kind => [.ended kind q.outcome.metric.id]
  | none => []

def Frame.question (frame : Frame) (entry : Nat × Metric) (access : Access) : Question :=
  { outcome := .ofEntry entry (frame.begun entry access).answer
    kind := (frame.begun entry access).kind }

theorem Frame.entry_question (frame : Frame) (entry : Nat × Metric) (access : Access) :
    (frame.question entry access).outcome.entry = entry :=
  rfl

/-- The tasks of a phase, by what they are at. The calls of drivers and the log are in their
order, and finished outcomes the latest first. -/
structure Tasks where
  waiting : List (Nat × Metric)
  admitted : List (Nat × Metric)
  asked : List Question
  finished : List Outcome
  abandoned : List (Nat × Metric)
  called : List (Nat × Metric)
  registry : DriverRegistry
  log : List QueryEvent
  verdict : Option (Except Error (List Outcome))

namespace Tasks

def start (registry : DriverRegistry) (metrics : List Metric) : Tasks :=
  { waiting := number 0 metrics
    admitted := []
    asked := []
    finished := []
    abandoned := []
    called := []
    registry
    log := []
    verdict := none }

def entries (s : Tasks) : List (Nat × Metric) :=
  s.waiting ++ s.admitted ++ s.asked.map (fun q => q.outcome.entry) ++
    s.finished.map Outcome.entry ++ s.abandoned

/-- The evaluation has concluded, and every task has ended or been abandoned. -/
structure Over (s : Tasks) : Prop where
  waiting : s.waiting = []
  admitted : s.admitted = []
  asked : s.asked = []
  verdict : s.verdict.isSome = true

end Tasks

/-- What an evaluation that looks at its tasks may conclude. -/
inductive Concludes (frame : Frame) (s : Tasks) : Except Error (List Outcome) → Prop where
  | done (waiting : s.waiting = []) (admitted : s.admitted = []) (asked : s.asked = [])
      (tolerated : frame.engine.settings.failurePolicy = .bestEffort ∨
        ∀ outcome ∈ s.finished, outcome.answer.isOk = true) :
      Concludes frame s (.ok (inGroupOrder s.finished))
  | failed {outcome : Outcome} {e : Error}
      (policy : frame.engine.settings.failurePolicy = .failFast)
      (ended : outcome ∈ s.finished) (fault : outcome.answer = .error e) :
      Concludes frame s (.error e)
  | cancelled (given : frame.limits.cancelAfter.isSome = true) :
      Concludes frame s (.error .cancelled)
  | expired {deadline : Elapsed} (given : frame.limits.deadline = some deadline) :
      Concludes frame s (.error (.deadlineExceeded deadline))

/-- One move of a task, or of the evaluation that looks. A task holds its place from its
admission until it ends or is abandoned, and it can be abandoned only after a verdict, while
the others may still move. -/
inductive Step (frame : Frame) : Tasks → Tasks → Prop where
  | grant {s : Tasks} (front back : List (Nat × Metric)) (entry : Nat × Metric)
      (waits : s.waiting = front ++ entry :: back)
      (place : s.admitted.length + s.asked.length < frame.engine.settings.permits) :
      Step frame s
        { s with waiting := front ++ back, admitted := s.admitted ++ [entry] }
  | refuse {s : Tasks} (front back : List (Nat × Metric)) (entry : Nat × Metric) (e : Error)
      (admitted : s.admitted = front ++ entry :: back)
      (failed : (access frame.engine frame.findSource s.registry entry.2).1 = .error e) :
      Step frame s
        { s with
          admitted := front ++ back
          finished := .ofEntry entry (.error e) :: s.finished
          registry := (access frame.engine frame.findSource s.registry entry.2).2 }
  | call {s : Tasks} (front back : List (Nat × Metric)) (entry : Nat × Metric)
      (granted : Access) (admitted : s.admitted = front ++ entry :: back)
      (ready : (access frame.engine frame.findSource s.registry entry.2).1 = .ok granted) :
      Step frame s
        { s with
          admitted := front ++ back
          asked := s.asked ++ [frame.question entry granted]
          called := s.called ++ [entry]
          registry := (access frame.engine frame.findSource s.registry entry.2).2
          log := s.log ++ beginEvent (frame.question entry granted).kind entry.2 }
  | finish {s : Tasks} (front back : List Question) (q : Question)
      (asked : s.asked = front ++ q :: back) :
      Step frame s
        { s with
          asked := front ++ back
          finished := q.outcome :: s.finished
          log := s.log ++ q.endEvents }
  | conclude {s : Tasks} (answer : Except Error (List Outcome)) (looks : s.verdict = none)
      (concludes : Concludes frame s answer) :
      Step frame s { s with verdict := some answer }
  | leave {s : Tasks} (front back : List (Nat × Metric)) (entry : Nat × Metric)
      (concluded : s.verdict.isSome = true) (waits : s.waiting = front ++ entry :: back) :
      Step frame s
        { s with waiting := front ++ back, abandoned := entry :: s.abandoned }
  | vacate {s : Tasks} (front back : List (Nat × Metric)) (entry : Nat × Metric)
      (concluded : s.verdict.isSome = true) (admitted : s.admitted = front ++ entry :: back) :
      Step frame s
        { s with admitted := front ++ back, abandoned := entry :: s.abandoned }
  | abort {s : Tasks} (front back : List Question) (q : Question)
      (concluded : s.verdict.isSome = true) (asked : s.asked = front ++ q :: back) :
      Step frame s
        { s with
          asked := front ++ back
          abandoned := q.outcome.entry :: s.abandoned
          log := s.log ++ q.endEvents }

def Reaches (frame : Frame) (registry : DriverRegistry) (metrics : List Metric) :
    Tasks → Prop :=
  Relation.ReflTransGen (Step frame) (.start registry metrics)

/-! ### What no step loses -/

section

variable {frame : Frame} {registry : DriverRegistry} {metrics : List Metric} {s after : Tasks}

theorem Step.entries (step : Step frame s after) : after.entries.Perm s.entries := by
  classical
  refine List.perm_iff_count.mpr fun entry => ?_
  -- A step moves one entry from one list to another, and so the counts are compared.
  cases step with
  | grant front back entry waits place =>
      simp only [Tasks.entries, waits, List.count_append, List.count_cons, List.count_nil]
      omega
  | refuse front back entry e admitted failed =>
      simp only [Tasks.entries, Outcome.entry_ofEntry, admitted, List.count_append, List.count_cons,
        List.map_cons]
      omega
  | call front back entry granted admitted ready =>
      simp only [Tasks.entries, Frame.entry_question, admitted, List.count_append,
        List.count_cons, List.count_nil, List.map_append, List.map_cons, List.map_nil]
      omega
  | finish front back q asked =>
      simp only [Tasks.entries, asked, List.count_append, List.count_cons, List.map_append,
        List.map_cons]
      omega
  | conclude answer looks concludes => rfl
  | leave front back entry concluded waits =>
      simp only [Tasks.entries, waits, List.count_append, List.count_cons]
      omega
  | vacate front back entry concluded admitted =>
      simp only [Tasks.entries, admitted, List.count_append, List.count_cons]
      omega
  | abort front back q concluded asked =>
      simp only [Tasks.entries, asked, List.count_append, List.count_cons, List.map_append,
        List.map_cons]
      omega

/-- The places that tasks hold. -/
def Tasks.held (s : Tasks) : Nat :=
  s.admitted.length + s.asked.length

theorem Step.held (step : Step frame s after) (places : s.held ≤ frame.engine.settings.permits) :
    after.held ≤ frame.engine.settings.permits := by
  unfold Tasks.held at places ⊢
  cases step with
  | grant front back entry waits place =>
      simp only [List.length_append, List.length_singleton]
      omega
  | refuse front back entry e admitted failed =>
      simp only [admitted, List.length_append, List.length_cons] at places ⊢
      omega
  | call front back entry granted admitted ready =>
      simp only [admitted, List.length_append, List.length_cons, List.length_nil] at places ⊢
      omega
  | finish front back q asked =>
      simp only [asked, List.length_append, List.length_cons] at places ⊢
      omega
  | conclude answer looks concludes => exact places
  | leave front back entry concluded waits => exact places
  | vacate front back entry concluded admitted =>
      simp only [admitted, List.length_append, List.length_cons] at places ⊢
      omega
  | abort front back q concluded asked =>
      simp only [asked, List.length_append, List.length_cons] at places ⊢
      omega

/-! ### Answers -/

/-- Whatever is loaded meanwhile, a task comes to the answer that it would have come to at the
start. -/
structure Answered (frame : Frame) (registry : DriverRegistry) (s : Tasks) : Prop where
  answers : s.registry.answer = registry.answer
  asked : ∀ q ∈ s.asked, q.outcome = frame.outcome registry q.outcome.entry
  finished : ∀ outcome ∈ s.finished, outcome = frame.outcome registry outcome.entry

theorem Answered.access_eq (answered : Answered frame registry s) (m : Metric) :
    (access frame.engine frame.findSource s.registry m).1 =
      (access frame.engine frame.findSource registry m).1 :=
  access_answer _ _ answered.answers m

theorem Answered.access_after (answered : Answered frame registry s) (m : Metric) :
    (access frame.engine frame.findSource s.registry m).2.answer = registry.answer :=
  (access_answers _ _ _ _).trans answered.answers

theorem Answered.step (answered : Answered frame registry s) (step : Step frame s after) :
    Answered frame registry after := by
  cases step with
  | grant front back entry waits place =>
      exact ⟨answered.answers, answered.asked, answered.finished⟩
  | refuse front back entry e admitted failed =>
      rw [answered.access_eq] at failed
      have own : frame.answer registry entry = .error e := by
        unfold Frame.answer
        rw [failed]
      constructor
      · exact answered.access_after _
      · exact answered.asked
      · refine List.forall_mem_cons.mpr ⟨?_, answered.finished⟩
        exact congrArg (Outcome.ofEntry entry) own.symm
  | call front back entry granted admitted ready =>
      rw [answered.access_eq] at ready
      have own : frame.answer registry entry = (frame.begun entry granted).answer := by
        unfold Frame.answer
        rw [ready]
      constructor
      · exact answered.access_after _
      · refine List.forall_mem_append.mpr ⟨answered.asked, ?_⟩
        exact List.forall_mem_singleton.mpr (congrArg (Outcome.ofEntry entry) own.symm)
      · exact answered.finished
  | finish front back q asked =>
      have all := answered.asked
      rw [asked, List.forall_mem_append, List.forall_mem_cons] at all
      obtain ⟨before, ended, later⟩ := all
      constructor
      · exact answered.answers
      · exact List.forall_mem_append.mpr ⟨before, later⟩
      · exact List.forall_mem_cons.mpr ⟨ended, answered.finished⟩
  | conclude answer looks concludes => exact ⟨answered.answers, answered.asked, answered.finished⟩
  | leave front back entry concluded waits =>
      exact ⟨answered.answers, answered.asked, answered.finished⟩
  | vacate front back entry concluded admitted =>
      exact ⟨answered.answers, answered.asked, answered.finished⟩
  | abort front back q concluded asked =>
      have all := answered.asked
      rw [asked, List.forall_mem_append, List.forall_mem_cons] at all
      exact ⟨answered.answers, List.forall_mem_append.mpr ⟨all.1, all.2.2⟩, answered.finished⟩

/-! ### Calls of drivers -/

def Frame.resolves (frame : Frame) (registry : DriverRegistry) (m : Metric) : Bool :=
  (access frame.engine frame.findSource registry m).1.isOk

/-- A task calls its driver when it leaves its admission, and only if it has access. -/
structure Called (frame : Frame) (registry : DriverRegistry) (metrics : List Metric)
    (s : Tasks) : Prop where
  once : (s.waiting ++ s.admitted ++ s.called).Subperm (number 0 metrics)
  resolved : ∀ entry ∈ s.called, frame.resolves registry entry.2 = true
  asked : ∀ q ∈ s.asked, q.outcome.entry ∈ s.called
  finished : ∀ outcome ∈ s.finished,
    frame.resolves registry outcome.metric = true → outcome.entry ∈ s.called

private theorem without_sublist {α : Type} (front back : List α) (a : α) :
    (front ++ back).Sublist (front ++ a :: back) :=
  (List.sublist_cons_self a back).append_left front

theorem Called.step (called : Called frame registry metrics s)
    (answered : Answered frame registry s) (step : Step frame s after) :
    Called frame registry metrics after := by
  classical
  have once := called.once
  cases step with
  | grant front back entry waits place =>
      refine ⟨List.Perm.subperm ?_ |>.trans once, called.resolved, called.asked, called.finished⟩
      refine List.perm_iff_count.mpr fun other => ?_
      simp only [waits, List.count_append, List.count_cons, List.count_nil]
      omega
  | refuse front back entry e admitted failed =>
      rw [answered.access_eq] at failed
      refine ⟨List.Subperm.trans (List.Sublist.subperm ?_) once, called.resolved, called.asked, ?_⟩
      · simp only [admitted]
        exact ((without_sublist front back entry).append_left _).append_right _
      · refine List.forall_mem_cons.mpr ⟨fun resolves => ?_, called.finished⟩
        have granted : (access frame.engine frame.findSource registry entry.2).1.isOk = true :=
          resolves
        rw [failed] at granted
        cases granted
  | call front back entry granted admitted ready =>
      rw [answered.access_eq] at ready
      constructor
      · refine List.Perm.subperm ?_ |>.trans once
        refine List.perm_iff_count.mpr fun other => ?_
        simp only [admitted, List.count_append, List.count_cons, List.count_nil]
        omega
      · refine List.forall_mem_append.mpr ⟨called.resolved, ?_⟩
        refine List.forall_mem_singleton.mpr ?_
        unfold Frame.resolves
        rw [ready]
        rfl
      · refine List.forall_mem_append.mpr ⟨fun q member => ?_, ?_⟩
        · exact List.mem_append_left _ (called.asked q member)
        · exact List.forall_mem_singleton.mpr (List.mem_append_right _ List.mem_cons_self)
      · exact fun outcome ended resolves =>
          List.mem_append_left _ (called.finished outcome ended resolves)
  | finish front back q asked =>
      have all := called.asked
      rw [asked, List.forall_mem_append, List.forall_mem_cons] at all
      obtain ⟨before, ended, later⟩ := all
      exact
        { once
          resolved := called.resolved
          asked := List.forall_mem_append.mpr ⟨before, later⟩
          finished := List.forall_mem_cons.mpr ⟨fun _ => ended, called.finished⟩ }
  | conclude answer looks concludes => exact ⟨once, called.resolved, called.asked, called.finished⟩
  | leave front back entry concluded waits =>
      refine ⟨List.Subperm.trans (List.Sublist.subperm ?_) once, called.resolved, called.asked,
        called.finished⟩
      simp only [waits]
      exact ((without_sublist front back entry).append_right _).append_right _
  | vacate front back entry concluded admitted =>
      refine ⟨List.Subperm.trans (List.Sublist.subperm ?_) once, called.resolved, called.asked,
        called.finished⟩
      simp only [admitted]
      exact ((without_sublist front back entry).append_left _).append_right _
  | abort front back q concluded asked =>
      have all := called.asked
      rw [asked, List.forall_mem_append, List.forall_mem_cons] at all
      exact ⟨once, called.resolved, List.forall_mem_append.mpr ⟨all.1, all.2.2⟩, called.finished⟩

/-! ### The log -/

/-- The log begins a question when a driver is called and ends it when the driver has it no
more, so that it never counts more questions than there are places. -/
structure Logged (frame : Frame) (s : Tasks) : Prop where
  inHand : ∀ kind, QueryEvent.inHand kind s.log =
    s.asked.countP fun q => q.kind = some kind
  peak : ∀ kind, QueryEvent.peakFrom kind 0 s.log ≤ frame.engine.settings.permits
  begun : (s.log.filterMap QueryEvent.begun?).Sublist (s.called.map fun entry => entry.2.id)

theorem inHand_beginEvent (kind : String) (begun : Option String) (m : Metric) :
    QueryEvent.inHand kind (beginEvent begun m) = if begun = some kind then 1 else 0 := by
  cases begun with
  | none => rfl
  | some other =>
      simp only [beginEvent, QueryEvent.inHand_singleton, QueryEvent.change, Option.some.injEq]

theorem inHand_endEvents (kind : String) (q : Question) :
    QueryEvent.inHand kind q.endEvents = if q.kind = some kind then -1 else 0 := by
  unfold Question.endEvents
  cases q.kind with
  | none => rfl
  | some other =>
      simp only [QueryEvent.inHand_singleton, QueryEvent.change, Option.some.injEq]

theorem Logged.inHand_le (logged : Logged frame s) (kind : String) :
    QueryEvent.inHand kind s.log ≤ s.asked.length := by
  rw [logged.inHand]
  exact Int.ofNat_le.mpr List.countP_le_length

/-- A question that ends does not raise the count in hand. -/
theorem Logged.ends (logged : Logged frame s) (places : s.held ≤ frame.engine.settings.permits)
    {front back : List Question} {q : Question} (asked : s.asked = front ++ q :: back) :
    (∀ kind, QueryEvent.inHand kind (s.log ++ q.endEvents) =
      (front ++ back).countP fun q => q.kind = some kind) ∧
      (∀ kind, QueryEvent.peakFrom kind 0 (s.log ++ q.endEvents) ≤
        frame.engine.settings.permits) ∧
      (s.log ++ q.endEvents).filterMap QueryEvent.begun? =
        s.log.filterMap QueryEvent.begun? := by
  refine ⟨fun kind => ?_, fun kind => ?_, ?_⟩
  · rw [QueryEvent.inHand_append, logged.inHand, inHand_endEvents, asked, List.countP_append,
      List.countP_cons, List.countP_append]
    by_cases same : q.kind = some kind
    · simp only [same, decide_true, if_true]
      omega
    · simp only [same, decide_false, Bool.false_eq_true, if_false]
      omega
  · have before := logged.peak kind
    have count := logged.inHand_le kind
    unfold Tasks.held at places
    unfold Question.endEvents
    cases q.kind with
    | none =>
        rw [List.append_nil]
        exact before
    | some other =>
        have lower : (QueryEvent.ended other q.outcome.metric.id).change kind ≤ 0 := by
          simp only [QueryEvent.change]
          split <;> decide
        simp only [QueryEvent.peakFrom_concat]
        omega
  · rw [List.filterMap_append]
    unfold Question.endEvents
    cases q.kind <;> exact List.append_nil _

/-- A question begins in a place that its task already holds. -/
theorem Logged.begins (logged : Logged frame s) (places : s.held ≤ frame.engine.settings.permits)
    {front back : List (Nat × Metric)} {entry : Nat × Metric}
    (admitted : s.admitted = front ++ entry :: back) (begun : Option String)
    (outcome : Outcome) :
    (∀ kind, QueryEvent.inHand kind (s.log ++ beginEvent begun entry.2) =
      (s.asked ++ [Question.mk outcome begun]).countP fun q => q.kind = some kind) ∧
      (∀ kind, QueryEvent.peakFrom kind 0 (s.log ++ beginEvent begun entry.2) ≤
        frame.engine.settings.permits) ∧
      ((s.log ++ beginEvent begun entry.2).filterMap QueryEvent.begun?).Sublist
        ((s.called ++ [entry]).map fun entry => entry.2.id) := by
  refine ⟨fun kind => ?_, fun kind => ?_, ?_⟩
  · rw [QueryEvent.inHand_append, logged.inHand, inHand_beginEvent, List.countP_append,
      List.countP_singleton]
    by_cases same : begun = some kind
    · simp only [same, decide_true, if_true]
      omega
    · simp only [same, decide_false, Bool.false_eq_true, if_false]
      omega
  · have before := logged.peak kind
    have count := logged.inHand_le kind
    simp only [Tasks.held, admitted, List.length_append, List.length_cons] at places
    cases begun with
    | none =>
        simp only [beginEvent, List.append_nil]
        exact before
    | some other =>
        have upper : (QueryEvent.began other entry.2.id).change kind ≤ 1 := by
          simp only [QueryEvent.change]
          split <;> decide
        simp only [beginEvent, QueryEvent.peakFrom_concat]
        omega
  · rw [List.filterMap_append, List.map_append]
    refine logged.begun.append ?_
    cases begun with
    | none => exact List.nil_sublist _
    | some other => exact List.Sublist.refl _

theorem Logged.step (logged : Logged frame s) (places : s.held ≤ frame.engine.settings.permits)
    (step : Step frame s after) : Logged frame after := by
  cases step with
  | grant front back entry waits place => exact ⟨logged.inHand, logged.peak, logged.begun⟩
  | refuse front back entry e admitted failed => exact ⟨logged.inHand, logged.peak, logged.begun⟩
  | call front back entry granted admitted ready =>
      obtain ⟨count, peak, begun⟩ := logged.begins places admitted _ _
      exact ⟨count, peak, begun⟩
  | finish front back q asked =>
      obtain ⟨count, peak, begun⟩ := logged.ends places asked
      exact ⟨count, peak, begun ▸ logged.begun⟩
  | conclude answer looks concludes => exact ⟨logged.inHand, logged.peak, logged.begun⟩
  | leave front back entry concluded waits => exact ⟨logged.inHand, logged.peak, logged.begun⟩
  | vacate front back entry concluded admitted => exact ⟨logged.inHand, logged.peak, logged.begun⟩
  | abort front back q concluded asked =>
      obtain ⟨count, peak, begun⟩ := logged.ends places asked
      exact ⟨count, peak, begun ▸ logged.begun⟩

end

end QueryPhase

end RolloutWatch

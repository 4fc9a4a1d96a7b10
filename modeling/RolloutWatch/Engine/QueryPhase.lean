import RolloutWatch.Engine.World

/-!
The query phase of an evaluation: the metrics of a group are asked for in their order, so
many at once as there are places, and each query has its own time limit. Time is a count of
milliseconds that moves from one due time to the next. At one time the queries that are due
end first, in the order of the group; then waiting ones take the free places; and then the
evaluation looks at what has come in. A query without a delay ends as soon as it has its
place. Nothing is written to the store.
-/

namespace RolloutWatch

/-- What came of the query of one metric, with the metric's position in the group. -/
structure Outcome where
  index : Nat
  metric : Metric
  answer : Except Error Json.Value

/-- A query in progress and the time at which it ends. -/
structure Running where
  outcome : Outcome
  kind : Option String
  due : Nat

namespace QueryPhase

/-- What limits a phase besides the settings: times from its start at which it is cancelled
and at which its deadline is. -/
structure Limits where
  cancelAfter : Option Nat
  deadline : Option Elapsed

/-- What a phase knows while it runs. Finished outcomes are in the order of their ends, the
latest first, and so is the log. -/
structure Phase where
  waiting : List (Nat × Metric)
  running : List Running
  finished : List Outcome
  registry : DriverRegistry
  log : List QueryEvent

/-- What a phase leaves: its answer, the drivers loaded by it, its log, and the time it took. -/
structure Report where
  answer : Except Error (List Outcome)
  registry : DriverRegistry
  log : List QueryEvent
  elapsed : Nat

/-- A query that has taken a place. Without a time it ends at once. -/
structure Begun where
  kind : Option String
  time : Option Nat
  answer : Except Error Json.Value

def refused (e : Error) : Begun :=
  { kind := none, time := none, answer := .error e }

def limited (limit : Elapsed) (m : Metric) (kind : String) (asking : Asking) : Begun :=
  let kind := if asking.reached then some kind else none
  let answer := match asking.answer with
    | .ok value => .ok value
    | .error e => .error (.query m.resultKey (.driver e))
  match asking.delay with
  | none => { kind, time := none, answer }
  | some delay =>
      if delay.milliseconds ≤ limit.milliseconds then
        { kind, time := some delay.milliseconds, answer }
      else
        { kind
          time := some limit.milliseconds
          answer := .error (.query m.resultKey (.timedOut limit)) }

/-- Begins the query of a metric: its source is found, the driver resolved, the connection
opened and the question put, and the first of these that fails ends it. -/
def begin (engine : Engine) (findSource : EntityId → Except Error (Option DataSource))
    (registry : DriverRegistry) (m : Metric) : Begun × DriverRegistry :=
  match findSource m.dataSourceId with
  | .error e => (refused e, registry)
  | .ok none => (refused (.notFound .dataSource m.dataSourceId), registry)
  | .ok (some source) =>
      match registry.resolve source.pluginSrc with
      | (.error e, registry) => (refused e, registry)
      | (.ok driver, registry) =>
          match engine.cipher.openConfig source.sealedData with
          | .error e => (refused e, registry)
          | .ok config =>
              (limited engine.settings.metricTimeout m driver.kind
                (driver.ask engine.network config.bytes m.querySpec.toBytes), registry)

def endEvent (r : Running) : List QueryEvent :=
  match r.kind with
  | some kind => [.ended kind r.outcome.metric.id]
  | none => []

def beginEvent (kind : Option String) (m : Metric) : List QueryEvent :=
  match kind with
  | some kind => [.began kind m.id]
  | none => []

def finishDue (now : Nat) (p : Phase) : Phase :=
  let due := p.running.filter fun r => r.due ≤ now
  { p with
    running := p.running.filter fun r => now < r.due
    finished := (due.map Running.outcome).reverse ++ p.finished
    log := (due.flatMap endEvent).reverse ++ p.log }

def enter (engine : Engine) (findSource : EntityId → Except Error (Option DataSource))
    (now index : Nat) (m : Metric) (p : Phase) : Phase :=
  let (begun, registry) := begin engine findSource p.registry m
  let outcome : Outcome := { index, metric := m, answer := begun.answer }
  let log := beginEvent begun.kind m ++ p.log
  match begun.time with
  | some time =>
      { p with
        running := p.running ++ [{ outcome, kind := begun.kind, due := now + time }]
        registry
        log }
  | none =>
      { p with
        finished := outcome :: p.finished
        registry
        log := endEvent { outcome, kind := begun.kind, due := now } ++ log }

def enterAll (engine : Engine) (findSource : EntityId → Except Error (Option DataSource))
    (now : Nat) : List (Nat × Metric) → Phase → Phase
  | [], p => { p with waiting := [] }
  | (index, m) :: rest, p =>
      if p.running.length < engine.settings.permits then
        enterAll engine findSource now rest (enter engine findSource now index m p)
      else { p with waiting := (index, m) :: rest }

/-- All that happens at one time before the evaluation looks. -/
def round (engine : Engine) (findSource : EntityId → Except Error (Option DataSource))
    (now : Nat) (p : Phase) : Phase :=
  let p := finishDue now p
  enterAll engine findSource now p.waiting p

def isCancelled (limits : Limits) (now : Nat) : Bool :=
  match limits.cancelAfter with
  | some time => time ≤ now
  | none => false

/-- The first failure in the order in which queries ended. -/
def firstFailure? (p : Phase) : Option Error :=
  p.finished.reverse.findSome? fun outcome =>
    match outcome.answer with
    | .error e => some e
    | .ok _ => none

def isDone (p : Phase) : Bool :=
  p.waiting.isEmpty && p.running.isEmpty

def inGroupOrder (outcomes : List Outcome) : List Outcome :=
  outcomes.mergeSort fun a b => a.index ≤ b.index

/-- What the evaluation concludes when it looks, if anything. -/
def verdict? (engine : Engine) (limits : Limits) (now : Nat) (p : Phase) :
    Option (Except Error (List Outcome)) :=
  if isCancelled limits now then some (.error .cancelled)
  else
    match engine.settings.failurePolicy, firstFailure? p with
    | .failFast, some e => some (.error e)
    | _, _ => if isDone p then some (.ok (inGroupOrder p.finished)) else none

def nextDue? (p : Phase) : Option Nat :=
  (p.running.map Running.due).min?

/-- Ends the phase. Queries in progress are abandoned. -/
def conclude (now : Nat) (p : Phase) (answer : Except Error (List Outcome)) : Report :=
  { answer
    registry := p.registry
    log := ((p.running.flatMap endEvent).reverse ++ p.log).reverse
    elapsed := now }

def cancelledBefore? (limits : Limits) (time : Nat) : Option Nat :=
  limits.cancelAfter.filter fun cancel => cancel ≤ time

def deadlineBefore? (limits : Limits) (time : Nat) : Option Elapsed :=
  limits.deadline.filter fun deadline => deadline.milliseconds ≤ time

/-- What ends the phase before or at a given time: the deadline, or else a cancellation
before it. -/
def interruption? (limits : Limits) (time : Nat) : Option (Nat × Error) :=
  match cancelledBefore? limits time, deadlineBefore? limits time with
  | some cancel, some deadline =>
      if cancel < deadline.milliseconds then some (cancel, .cancelled)
      else some (deadline.milliseconds, .deadlineExceeded deadline)
  | some cancel, none => some (cancel, .cancelled)
  | none, some deadline => some (deadline.milliseconds, .deadlineExceeded deadline)
  | none, none => none

/-- Goes from one due time to the next. Every turn ends a query, so the count of metrics is
fuel enough. -/
def advance (engine : Engine) (findSource : EntityId → Except Error (Option DataSource))
    (limits : Limits) : Nat → Nat → Phase → Report
  | 0, now, p => conclude now p (.error .cancelled)
  | fuel + 1, now, p =>
      match nextDue? p with
      | none => conclude now p (.ok (inGroupOrder p.finished))
      | some due =>
          match interruption? limits due with
          | some (time, e) => conclude time p (.error e)
          | none =>
              let p := round engine findSource due p
              match verdict? engine limits due p with
              | some answer => conclude due p answer
              | none => advance engine findSource limits fuel due p

def number : Nat → List Metric → List (Nat × Metric)
  | _, [] => []
  | index, m :: rest => (index, m) :: number (index + 1) rest

/-- The whole phase for the metrics of a group. Before any query begins, the evaluation looks
once, and a deadline of no time has passed. -/
def run (engine : Engine) (findSource : EntityId → Except Error (Option DataSource))
    (limits : Limits) (registry : DriverRegistry) (metrics : List Metric) : Report :=
  let p : Phase :=
    { waiting := number 0 metrics, running := [], finished := [], registry, log := [] }
  match verdict? engine limits 0 p with
  | some answer => conclude 0 p answer
  | none =>
      match deadlineBefore? limits 0 with
      | some deadline => conclude 0 p (.error (.deadlineExceeded deadline))
      | none =>
          let p := round engine findSource 0 p
          match verdict? engine limits 0 p with
          | some answer => conclude 0 p answer
          | none => advance engine findSource limits (metrics.length + 1) 0 p

end QueryPhase

end RolloutWatch

import RolloutWatch.Error
import RolloutWatch.Json.Decoder
import RolloutWatch.Json.Printer

/-!
The settings of the program: where it stores, how it evaluates, how long it waits for a
backend, and which variable of the environment holds the passphrase. Everything has a
default.
-/

namespace RolloutWatch

/-- What a failing metric does to the evaluation of its group. -/
inductive FailurePolicy where
  | failFast
  | bestEffort
  deriving DecidableEq

namespace FailurePolicy

def name : FailurePolicy → String
  | .failFast => "fail_fast"
  | .bestEffort => "best_effort"

def ofName? (s : String) : Option FailurePolicy :=
  if s = "fail_fast" then some .failFast
  else if s = "best_effort" then some .bestEffort
  else none

def decoder : Json.Decoder FailurePolicy :=
  Json.Decoder.named ofName?

end FailurePolicy

/-- What happens to a reached metric whose condition stops holding. -/
inductive TransitionPolicy where
  | latching
  | tracking
  deriving DecidableEq

namespace TransitionPolicy

def name : TransitionPolicy → String
  | .latching => "latching"
  | .tracking => "tracking"

def ofName? (s : String) : Option TransitionPolicy :=
  if s = "latching" then some .latching
  else if s = "tracking" then some .tracking
  else none

def decoder : Json.Decoder TransitionPolicy :=
  Json.Decoder.named ofName?

end TransitionPolicy

structure EvaluationSettings where
  maxConcurrency : Nat
  metricTimeoutMs : Nat
  groupDeadlineMs : Option Nat
  intervalSecs : Nat
  failurePolicy : FailurePolicy
  transitionPolicy : TransitionPolicy
  deriving DecidableEq

namespace EvaluationSettings

def default : EvaluationSettings :=
  { maxConcurrency := 4
    metricTimeoutMs := 10000
    groupDeadlineMs := none
    intervalSecs := 60
    failurePolicy := .failFast
    transitionPolicy := .latching }

def metricTimeout (s : EvaluationSettings) : Elapsed :=
  { milliseconds := s.metricTimeoutMs }

def groupDeadline (s : EvaluationSettings) : Option Elapsed :=
  s.groupDeadlineMs.map fun ms => { milliseconds := ms }

def interval (s : EvaluationSettings) : Elapsed :=
  .ofSeconds (max s.intervalSecs 1)

def permits (s : EvaluationSettings) : Nat :=
  max s.maxConcurrency 1

def check (s : EvaluationSettings) : Except Error Unit :=
  if s.intervalSecs = 0 then .error (.config .intervalTooShort)
  else if s.maxConcurrency = 0 then .error (.config .noConcurrency)
  else .ok ()

def fieldNames : List String :=
  ["max_concurrency", "metric_timeout_ms", "group_deadline_ms", "interval_secs",
    "failure_policy", "transition_policy"]

def decoder : Json.Decoder EvaluationSettings :=
  Json.Decoder.entity fieldNames fun fields => do
    let maxConcurrency ←
      fields.orDefault "max_concurrency" Json.Decoder.natural default.maxConcurrency
    let metricTimeoutMs ←
      fields.orDefault "metric_timeout_ms" Json.Decoder.natural default.metricTimeoutMs
    let groupDeadlineMs ←
      fields.orDefault "group_deadline_ms" (Json.Decoder.nullable Json.Decoder.natural) none
    let intervalSecs ←
      fields.orDefault "interval_secs" Json.Decoder.natural default.intervalSecs
    let failurePolicy ← fields.orDefault "failure_policy" FailurePolicy.decoder .failFast
    let transitionPolicy ←
      fields.orDefault "transition_policy" TransitionPolicy.decoder .latching
    pure
      { maxConcurrency, metricTimeoutMs, groupDeadlineMs, intervalSecs, failurePolicy,
        transitionPolicy }

def toJson (s : EvaluationSettings) : Json.Value :=
  .object
    [("max_concurrency", .number (.integer s.maxConcurrency)),
      ("metric_timeout_ms", .number (.integer s.metricTimeoutMs)),
      ("group_deadline_ms", match s.groupDeadlineMs with
        | some ms => .number (.integer ms)
        | none => .null),
      ("interval_secs", .number (.integer s.intervalSecs)),
      ("failure_policy", .text s.failurePolicy.name),
      ("transition_policy", .text s.transitionPolicy.name)]

end EvaluationSettings

structure Settings where
  databasePath : String
  evaluation : EvaluationSettings
  requestTimeoutMs : Nat
  encryptionKeyVariable : String
  deriving DecidableEq

namespace Settings

def default : Settings :=
  { databasePath := ".compass/compass.db"
    evaluation := .default
    requestTimeoutMs := 5000
    encryptionKeyVariable := "ENCRYPTION_KEY" }

def requestTimeout (s : Settings) : Elapsed :=
  { milliseconds := s.requestTimeoutMs }

/-- The passphrase in the environment; an empty one is as good as none. -/
def encryptionKey (s : Settings) (environment : String → Option String) :
    Except Error String :=
  match environment s.encryptionKeyVariable with
  | some value =>
      if value = "" then .error (.config (.missingVariable s.encryptionKeyVariable))
      else .ok value
  | none => .error (.config (.missingVariable s.encryptionKeyVariable))

def toJson (s : Settings) : Json.Value :=
  .object
    [("database", .object [("path", .text s.databasePath)]),
      ("evaluation", s.evaluation.toJson),
      ("drivers",
        .object [("request_timeout_ms", .number (.integer s.requestTimeoutMs))]),
      ("security", .object [("encryption_key_env", .text s.encryptionKeyVariable)])]

end Settings

end RolloutWatch

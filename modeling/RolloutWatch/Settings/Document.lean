import RolloutWatch.Settings.Basic
import RolloutWatch.Toml.Document

/-!
Settings documents: what a document says about the settings, and the document that says a
given thing. A section may be a table of its fields or an array of them in their order; what
is not known is passed over and what is left out takes its default.
-/

namespace RolloutWatch

namespace Toml.Node

def text? : Node → Option String
  | .text s => some s
  | _ => none

def natural? : Node → Option Nat
  | .integer i => if 0 ≤ i then some i.toNat else none
  | _ => none

def isEmptyContainer : Node → Bool
  | .array [] => true
  | .braces _ [] => true
  | .table _ [] => true
  | _ => false

def named? {α : Type} (parse? : String → Option α) : Node → Option α
  | .text s => parse? s
  | .braces _ [(key, inner)] => if inner.isEmptyContainer then parse? key else none
  | .table _ [(key, inner)] => if inner.isEmptyContainer then parse? key else none
  | _ => none

/-- The fields of a section with these names in declared order. A moment has no field of a
known name. -/
def fields? (names : List String) : Node → Option Entries
  | .braces _ entries => some entries
  | .table _ entries => some entries
  | .array items => some (names.zip items)
  | .tables items => some (names.zip (items.map (Node.table Node.named)))
  | .moment => some []
  | _ => none

def field {α : Type} (entries : Entries) (name : String) (read? : Node → Option α)
    (absent : α) : Option α :=
  match find? name entries with
  | some node => read? node
  | none => some absent

end Toml.Node

namespace EvaluationSettings

open Toml.Node in
def ofNode? (node : Toml.Node) : Option EvaluationSettings := do
  let entries ← fields? fieldNames node
  let maxConcurrency ← field entries "max_concurrency" natural? default.maxConcurrency
  let metricTimeoutMs ← field entries "metric_timeout_ms" natural? default.metricTimeoutMs
  let groupDeadlineMs ←
    field entries "group_deadline_ms" (fun n => (natural? n).map some) none
  let intervalSecs ← field entries "interval_secs" natural? default.intervalSecs
  let failurePolicy ←
    field entries "failure_policy" (named? FailurePolicy.ofName?) .failFast
  let transitionPolicy ←
    field entries "transition_policy" (named? TransitionPolicy.ofName?) .latching
  pure
    { maxConcurrency, metricTimeoutMs, groupDeadlineMs, intervalSecs, failurePolicy,
      transitionPolicy }

end EvaluationSettings

namespace Settings

def soleField? {α : Type} (name : String) (read? : Toml.Node → Option α) (absent : α)
    (node : Toml.Node) : Option α := do
  let entries ← Toml.Node.fields? [name] node
  Toml.Node.field entries name read? absent

open Toml.Node in
def ofEntries? (entries : Toml.Entries) : Option Settings := do
  let databasePath ←
    field entries "database" (soleField? "path" text? default.databasePath)
      default.databasePath
  let evaluation ← field entries "evaluation" EvaluationSettings.ofNode? .default
  let requestTimeoutMs ←
    field entries "drivers" (soleField? "request_timeout_ms" natural? default.requestTimeoutMs)
      default.requestTimeoutMs
  let encryptionKeyVariable ←
    field entries "security"
      (soleField? "encryption_key_env" text? default.encryptionKeyVariable)
      default.encryptionKeyVariable
  pure { databasePath, evaluation, requestTimeoutMs, encryptionKeyVariable }

def ofDocument (text : String) : Except Error Settings :=
  match Toml.document text.toList with
  | .error line => .error (.config (.unreadable line))
  | .ok entries =>
      match ofEntries? entries with
      | none =>
          .error (.config (.unreadable (1 + (text.toList.filter (· = '\n')).length)))
      | some settings =>
          match settings.evaluation.check with
          | .error e => .error e
          | .ok () => .ok settings

def ofBytes (bytes : List UInt8) : Except Error Settings :=
  match Utf8.toString? bytes with
  | none => .error (.file .notText)
  | some text => ofDocument text

def quotedText (s : String) : String :=
  String.ofList (Json.quoted s)

def number (n : Nat) : String :=
  String.ofList (Digits.ofNat n)

def sectionLines (name : String) (fields : List (String × String)) : List String :=
  ("[" ++ name ++ "]") :: fields.map fun (key, value) => key ++ " = " ++ value

def document (s : Settings) : String :=
  let deadline := match s.evaluation.groupDeadlineMs with
    | some ms => [("group_deadline_ms", number ms)]
    | none => []
  let sections :=
    [sectionLines "database" [("path", quotedText s.databasePath)],
      sectionLines "evaluation"
        ([("max_concurrency", number s.evaluation.maxConcurrency),
          ("metric_timeout_ms", number s.evaluation.metricTimeoutMs)] ++ deadline
          ++ [("interval_secs", number s.evaluation.intervalSecs),
            ("failure_policy", quotedText s.evaluation.failurePolicy.name),
            ("transition_policy", quotedText s.evaluation.transitionPolicy.name)]),
      sectionLines "drivers" [("request_timeout_ms", number s.requestTimeoutMs)],
      sectionLines "security" [("encryption_key_env", quotedText s.encryptionKeyVariable)]]
  "\n\n".intercalate (sections.map fun lines => "\n".intercalate lines) ++ "\n"

end Settings

end RolloutWatch

import RolloutWatch.DataSource
import RolloutWatch.Program.Arguments
import RolloutWatch.Time.Elapsed

/-!
The commands of the program and how they are given in words.
-/

namespace RolloutWatch

inductive ServiceCommand where
  | addSource (name : String) (workspaceId : EntityId) (pluginSrc data : String)
  | listSources (workspaceId : EntityId) (health : Option Health)
  | deleteSource (id : EntityId)
  | createGroup (file : String)
  | listGroups
  | showGroup (id : EntityId)
  | deleteGroup (id : EntityId)
  | evaluate (groupId : EntityId) (deadline : Option Elapsed)
  | listExecutions
  | run
  deriving DecidableEq

inductive Command where
  | writeSettings (force : Bool)
  | service (command : ServiceCommand)
  deriving DecidableEq

structure Invocation where
  settingsFile : String
  command : Command
  deriving DecidableEq

namespace Command

open Arguments

def path? (text : String) : Option String :=
  if text = "" then none else some text

def anyText (text : String) : Option String :=
  some text

def health? (text : String) : Option Health :=
  if text = "healthy" then some .healthy
  else if text = "unhealthy" then some .unhealthy
  else if text = "unknown" then some .unknown
  else none

def milliseconds? (text : String) : Option Elapsed :=
  let digits := match text.toList with
    | '+' :: rest => rest
    | other => other
  if digits ≠ [] ∧ digits.all Digits.isDigit ∧ Digits.toNat digits < Nat.pow 2 64 then
    some { milliseconds := Digits.toNat digits }
  else none

def flag (name : String) : OptionRule :=
  { name, letter := none, takesValue := false }

def valued (name : String) : OptionRule :=
  { name, letter := none, takesValue := true }

def defaultDriver : String :=
  "prometheus"

def sourceCommand : List String → Except Detour ServiceCommand
  | "add" :: words => do
      let given ← ofCommand [valued "workspace", valued "driver", valued "data"] 1 words
      let name ← given.soleOperand anyText
      let workspaceId ← given.required "workspace" EntityId.ofString?
      let pluginSrc ← given.optional "driver" anyText
      let data ← given.required "data" anyText
      pure (.addSource name workspaceId (pluginSrc.getD defaultDriver) data)
  | "list" :: words => do
      let given ← ofCommand [valued "health"] 1 words
      let workspaceId ← given.soleOperand EntityId.ofString?
      let health ← given.optional "health" health?
      pure (.listSources workspaceId health)
  | "delete" :: words => do
      let given ← ofCommand [] 1 words
      let id ← given.soleOperand EntityId.ofString?
      pure (.deleteSource id)
  | "help" :: _ => .error .help
  | _ => .error .misuse

def groupCommand : List String → Except Detour ServiceCommand
  | "create" :: words => do
      let given ← ofCommand [] 1 words
      let file ← given.soleOperand path?
      pure (.createGroup file)
  | "list" :: words => do
      let given ← ofCommand [] 0 words
      given.noOperand
      pure .listGroups
  | "show" :: words => do
      let given ← ofCommand [] 1 words
      let id ← given.soleOperand EntityId.ofString?
      pure (.showGroup id)
  | "delete" :: words => do
      let given ← ofCommand [] 1 words
      let id ← given.soleOperand EntityId.ofString?
      pure (.deleteGroup id)
  | "help" :: _ => .error .help
  | _ => .error .misuse

def ofWords : List String → Except Detour Command
  | "init" :: words => do
      let given ← ofCommand [flag "force"] 0 words
      given.noOperand
      pure (.writeSettings (given.has "force"))
  | "datasource" :: words => do
      let (_, words) ← beforeCommand [] words
      let command ← sourceCommand words
      pure (.service command)
  | "group" :: words => do
      let (_, words) ← beforeCommand [] words
      let command ← groupCommand words
      pure (.service command)
  | "evaluate" :: words => do
      let given ← ofCommand [valued "deadline-ms"] 1 words
      let groupId ← given.soleOperand EntityId.ofString?
      let deadline ← given.optional "deadline-ms" milliseconds?
      pure (.service (.evaluate groupId deadline))
  | "executions" :: words => do
      let given ← ofCommand [] 0 words
      given.noOperand
      pure (.service .listExecutions)
  | "run" :: words => do
      let given ← ofCommand [] 0 words
      given.noOperand
      pure (.service .run)
  | "help" :: _ => .error .help
  | _ => .error .misuse

end Command

namespace Invocation

open Arguments

def settingsRule : OptionRule :=
  { name := "config", letter := some 'c', takesValue := true }

/-- Asks for more to be said; there is no more to say. -/
def verboseRule : OptionRule :=
  { name := "verbose", letter := some 'v', takesValue := false }

def defaultSettingsFile : String :=
  "compass.toml"

def ofWords (words : List String) : Except Detour Invocation := do
  let (given, words) ← beforeCommand [versionRule, settingsRule, verboseRule] words
  let settingsFile ← given.optional settingsRule.name Command.path?
  let command ← Command.ofWords words
  pure { settingsFile := settingsFile.getD defaultSettingsFile, command }

def usage : String :=
  "\n".intercalate
    ["Usage: compass [-v] [-c PATH] COMMAND",
      "",
      "Commands:",
      "  init [--force]",
      "  datasource add NAME --workspace ID [--driver KIND] --data JSON",
      "  datasource list WORKSPACE [--health healthy|unhealthy|unknown]",
      "  datasource delete ID",
      "  group create FILE",
      "  group list",
      "  group show ID",
      "  group delete ID",
      "  evaluate ID [--deadline-ms MILLISECONDS]",
      "  executions",
      "  run",
      ""]

def version : String :=
  "compass 0.1.0\n"

end Invocation

end RolloutWatch

import RolloutWatch.Engine.Scheduler
import RolloutWatch.Engine.Sources
import RolloutWatch.Program.Command
import RolloutWatch.Program.Completion
import RolloutWatch.Program.Report
import RolloutWatch.Program.SettingsFile
import RolloutWatch.Store.Archive

/-!
Performing commands on a host. Every command but the one that writes settings reads the
settings, takes the passphrase, opens the database, and only then looks at what it was given.
Whatever a service has stored is kept, also if it fails in the end.
-/

namespace RolloutWatch

abbrev Step (m : Type → Type) (α : Type) := ExceptT Failure m α

structure Session where
  engine : Engine
  registry : DriverRegistry
  databasePath : String
  database : Database

namespace Program

variable {m : Type → Type} [Monad m] [Host m]

def notOpened (path reason : String) (causes : List String) : Failure :=
  { text := "Failed to open " ++ path, causes := reason :: causes }

/-- A database at this path lasts as long as the command. -/
def transientPath : String :=
  ":memory:"

def keep (path : String) (db : Database) : Step m Unit := do
  if path = transientPath then pure ()
  else
    match ← Host.writeFile (m := m) path db.archive with
    | .ok () => pure ()
    | .error fault => throw (notOpened path ("IO error: " ++ fault.text) [fault.text])

def openDatabase (path : String) : Step m Database := do
  match ← Host.makeDirectories (m := m) path with
  | .error fault => throw (notOpened path ("IO error: " ++ fault.text) [fault.text])
  | .ok () =>
      if path = transientPath then pure .empty
      else
        match ← Host.readFile (m := m) path with
        | .error .notFound =>
            keep path .empty
            pure .empty
        | .error fault => throw (notOpened path ("IO error: " ++ fault.text) [fault.text])
        | .ok bytes =>
            match Database.ofArchive? bytes with
            | some db => pure db
            | none => throw (notOpened path "file is not a database" [])

def loadSettings (path : String) : Step m Settings := do
  match ← (SettingsFile.load (m := m) path) with
  | .ok settings => pure settings
  | .error e => throw ((Failure.ofError e).within ("Failed to load " ++ path))

def orError {α : Type} : Except Error α → Step m α
  | .ok a => pure a
  | .error e => throw (.ofError e)

def openSession (settingsFile : String) : Step m Session := do
  let settings ← loadSettings settingsFile
  let value ← Host.valueOf (m := m) settings.encryptionKeyVariable
  let passphrase ← orError (settings.encryptionKey fun _ => value)
  let cipher ← orError (CredentialCipher.ofPassphrase passphrase)
  let database ← openDatabase settings.databasePath
  let network ← Host.network (m := m)
  pure
    { engine := { cipher, network, settings := settings.evaluation }
      registry := .builtin settings.requestTimeout
      databasePath := settings.databasePath
      database }

def call {α : Type} (s : Session) (action : Action RelationalStore α) :
    Step m (Except Error α) := do
  let supply ← Host.takeSupply (m := m)
  let (answer, world) := action
    { store := .onDatabase s.database, supply, registry := s.registry, clock := 0, log := [] }
  Host.returnSupply (m := m) world.supply
  keep s.databasePath world.store.database
  pure answer

def ask {α : Type} (s : Session) (action : Action RelationalStore α) : Step m α := do
  let answer ← call s action
  orError answer

def writeSettings (path : String) (force : Bool) : Step m Completion := do
  let present ← SettingsFile.isPresent (m := m) path
  if present && !force then
    throw { text := path ++ " already exists (use --force to overwrite)", causes := [] }
  else
    let written ← SettingsFile.writeDefault (m := m) path
    orError written
    pure
      (.succeeded
        (Report.lines
          ["Wrote default configuration to " ++ path,
            "Set ENCRYPTION_KEY before registering data sources."]))

def addSource (s : Session) (name : String) (workspaceId : EntityId)
    (pluginSrc data : String) : Step m Completion := do
  let bytes := Utf8.ofString data
  match Json.Value.ofBytes? bytes with
  | none =>
      throw
        { text := "Connection data is not valid JSON"
          causes := [(Json.Refusal.ofBytes bytes).text] }
  | some data =>
      let source ← ask s (Sources.create s.engine { name, workspaceId, pluginSrc, data })
      pure (.succeeded (Report.lines ["Created data source " ++ source.id.text]))

def createGroup (s : Session) (file : String) : Step m Completion := do
  match ← Host.readFile (m := m) file with
  | .error fault => throw { text := "Failed to read " ++ file, causes := [fault.text] }
  | .ok document =>
      let group ← ask s (do Groups.create (← Groups.parse document))
      pure
        (.succeeded
          (Report.lines
            ["Created metrics group " ++ group.id.text ++ " with "
              ++ Report.count group.metrics.length ++ " metrics"]))

def evaluate (s : Session) (groupId : EntityId) (deadline : Option Elapsed) :
    Step m Completion := do
  let limits : QueryPhase.Limits :=
    { cancelAfter := none, deadline := deadline.or s.engine.settings.groupDeadline }
  match ← call s (Evaluation.evaluateWith s.engine groupId limits) with
  | .error e => throw ((Failure.ofError e).within "Evaluation failed")
  | .ok report => pure (.succeeded (Report.document (Report.evaluation report)))

def performIn (s : Session) : ServiceCommand → Step m Completion
  | .addSource name workspaceId pluginSrc data => addSource s name workspaceId pluginSrc data
  | .listSources workspaceId health => do
      let sources ← ask s (Sources.list workspaceId health)
      pure (.succeeded (Report.sources sources))
  | .deleteSource id => do
      ask s (Sources.delete id)
      pure (.succeeded (Report.lines ["Deleted data source " ++ id.text]))
  | .createGroup file => createGroup s file
  | .listGroups => do
      let groups ← ask s Groups.findAll
      pure (.succeeded (Report.groups groups))
  | .showGroup id => do
      let group ← ask s (Groups.find id)
      pure (.succeeded (Report.document group.toJson))
  | .deleteGroup id => do
      ask s (Groups.delete id)
      pure (.succeeded (Report.lines ["Deleted metrics group " ++ id.text]))
  | .evaluate groupId deadline => evaluate s groupId deadline
  | .listExecutions => do
      let executions ← ask s Tracker.findAll
      pure (.succeeded (Report.executions executions))
  | .run => do
      let _ ← call s (Scheduler.pass s.engine none)
      pure (.repeating s.engine.settings.interval)

def performStep (invocation : Invocation) : Step m Completion :=
  match invocation.command with
  | .writeSettings force => writeSettings invocation.settingsFile force
  | .service command => do
      let s ← openSession invocation.settingsFile
      performIn s command

def perform (invocation : Invocation) : m Completion := do
  match ← (performStep invocation).run with
  | .ok completion => pure completion
  | .error failure => pure (.failed failure)

def performWords (words : List String) : m Completion :=
  match Invocation.ofWords words with
  | .ok invocation => perform invocation
  | .error .help => pure (.succeeded Invocation.usage)
  | .error .version => pure (.succeeded Invocation.version)
  | .error .misuse => pure (.misused Invocation.usage)

end Program

end RolloutWatch

import RolloutWatch.Program.Host
import RolloutWatch.Settings.Document

/-!
The settings file of a host. Without the file everything has its default; a file that is
there has to be readable.
-/

namespace RolloutWatch.SettingsFile

variable {m : Type → Type} [Monad m] [Host m]

def isPresent (path : String) : m Bool := do
  let content ← Host.readFile path
  pure (Host.isPresent content)

def load (path : String) : m (Except Error Settings) := do
  match ← Host.readFile path with
  | .ok bytes => pure (Settings.ofBytes bytes)
  | .error fault =>
      if Host.isMissing fault then pure (.ok .default) else pure (.error (.file fault))

def writeDefault (path : String) : m (Except Error Unit) := do
  match ← Host.makeDirectories path with
  | .error fault => pure (.error (.file fault))
  | .ok () =>
      match ← Host.writeFile path (Utf8.ofString Settings.default.document) with
      | .error fault => pure (.error (.file fault))
      | .ok () => pure (.ok ())

end RolloutWatch.SettingsFile

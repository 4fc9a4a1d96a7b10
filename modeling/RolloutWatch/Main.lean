import RolloutWatch.Program.Perform
import Std.Time.DateTime

/-!
The command line on the machine that runs it. There is no transport to backends here, so
every query finds them refused.
-/

namespace RolloutWatch.Machine

def fileFault : IO.Error → FileFault
  | .noFileOrDirectory .. => .notFound
  | .alreadyExists .. => .alreadyExists
  | .inappropriateType _ 20 _ => .notDirectory
  | .inappropriateType _ 21 _ => .isDirectory
  | e => .other (toString e)

def attempt {α : Type} (action : IO α) : IO (Except FileFault α) := do
  try
    let a ← action
    pure (.ok a)
  catch e => pure (.error (fileFault e))

def directory (path : String) : String :=
  "/".intercalate (path.splitOn "/").dropLast

def now : IO Instant := do
  let time ← Std.Time.Timestamp.now
  let moment := Std.Time.PlainDateTime.ofWallTime (time.toWallTime .zero)
  let civil : Civil :=
    { year := moment.date.year.toInt
      month := moment.date.month.val.toNat
      day := moment.date.day.val.toNat
      hour := moment.time.hour.val.toNat
      minute := moment.time.minute.val.toNat
      second := moment.time.second.val.toNat
      nano := moment.time.nanosecond.val.toNat }
  pure ((Instant.ofCivil? civil).getD .epoch)

instance : Host IO where
  readFile path := attempt do
    let bytes ← IO.FS.readBinFile path
    pure bytes.toList
  writeFile path bytes := attempt (IO.FS.writeBinFile path ⟨bytes.toArray⟩)
  makeDirectories path := attempt do
    if directory path = "" then pure () else IO.FS.createDirAll (directory path)
  valueOf name := IO.getEnv name
  network := pure Network.unreachable
  takeSupply := do
    let seed ← IO.getRandomBytes 32
    let time ← now
    pure (.seeded seed.toList time)
  returnSupply _ := pure ()

partial def run (words : List String) : IO UInt32 := do
  let completion ← Program.performWords (m := IO) words
  IO.print completion.output
  IO.eprint completion.message
  match completion.again with
  | none => pure (UInt32.ofNat completion.code)
  | some interval =>
      IO.sleep (UInt32.ofNat interval.milliseconds)
      run words

end RolloutWatch.Machine

def main (args : List String) : IO UInt32 :=
  RolloutWatch.Machine.run args

import RolloutWatch.Driver.Error
import RolloutWatch.EntityId
import RolloutWatch.Time.Elapsed
import RolloutWatch.Validation

/-!
The errors of the program, each with its cause, and their wording.
-/

namespace RolloutWatch

inductive EntityKind where
  | dataSource
  | metricsGroup
  | metric
  | metricExecution
  deriving DecidableEq

namespace EntityKind

def name : EntityKind → String
  | .dataSource => "Data source"
  | .metricsGroup => "Metrics group"
  | .metric => "Metric"
  | .metricExecution => "Metric execution"

def phrase : EntityKind → String
  | .dataSource => "data source"
  | .metricsGroup => "metrics group"
  | .metric => "metric"
  | .metricExecution => "metric execution"

end EntityKind

inductive QueryFault where
  | driver (e : DriverError)
  | timedOut (limit : Elapsed)
  deriving DecidableEq

namespace QueryFault

def text : QueryFault → String
  | .driver e => e.text
  | .timedOut limit => "timed out after " ++ limit.text

end QueryFault

inductive PersistenceFault where
  | closed
  | duplicate (kind : EntityKind) (id : EntityId)
  | notUnique (column : String)
  | unreadableInstant
  | unreadable (column : String)
  deriving DecidableEq

namespace PersistenceFault

def text : PersistenceFault → String
  | .closed => "connection is closed"
  | .duplicate kind id => "duplicate " ++ kind.phrase ++ " id " ++ id.text
  | .notUnique column => "turso error: UNIQUE constraint failed: " ++ column ++ " (19)"
  | .unreadableInstant => "failed to parse timestamp: input contains invalid characters"
  | .unreadable column => "failed to parse " ++ column

end PersistenceFault

inductive CredentialFault where
  | emptyPassphrase
  | notBase64
  | truncated
  | notOpened
  deriving DecidableEq

namespace CredentialFault

def text : CredentialFault → String
  | .emptyPassphrase => "encryption passphrase is empty"
  | .notBase64 => "sealed configuration is not base64"
  | .truncated => "sealed configuration is truncated"
  | .notOpened => "failed to open configuration"

end CredentialFault

inductive ConfigFault where
  | unreadable (line : Nat)
  | intervalTooShort
  | noConcurrency
  | missingVariable (name : String)
  | driverNotLoaded (kind : String) (e : DriverError)
  deriving DecidableEq

namespace ConfigFault

def text : ConfigFault → String
  | .unreadable line =>
      "Failed to parse config file: unreadable at line " ++ String.ofList (Digits.ofNat line)
  | .intervalTooShort => "evaluation.interval_secs must be at least 1"
  | .noConcurrency => "evaluation.max_concurrency must be at least 1"
  | .missingVariable name => "Environment variable " ++ name ++ " is not set"
  | .driverNotLoaded kind e => "failed to load driver " ++ kind ++ ": " ++ e.text

end ConfigFault

inductive FileFault where
  | notFound
  | alreadyExists
  | notDirectory
  | isDirectory
  | notText
  | other (reason : String)
  deriving DecidableEq

namespace FileFault

def text : FileFault → String
  | .notFound => "No such file or directory (os error 2)"
  | .alreadyExists => "File exists (os error 17)"
  | .notDirectory => "Not a directory (os error 20)"
  | .isDirectory => "Is a directory (os error 21)"
  | .notText => "stream did not contain valid UTF-8"
  | .other reason => reason

end FileFault

inductive Error where
  | notFound (kind : EntityKind) (id : EntityId)
  | driverNotFound (kind : String)
  | query (metric : String) (fault : QueryFault)
  | deadlineExceeded (limit : Elapsed)
  | cancelled
  | validation (violations : Violations)
  | persistence (fault : PersistenceFault)
  | credential (fault : CredentialFault)
  | config (fault : ConfigFault)
  | file (fault : FileFault)
  | serialization (refusal : Json.Refusal)
  deriving DecidableEq

namespace Error

def text : Error → String
  | .notFound kind id => kind.name ++ " not found: " ++ id.text
  | .driverNotFound kind => "Driver not found: " ++ kind
  | .query metric fault => "Query failed for metric " ++ metric ++ ": " ++ fault.text
  | .deadlineExceeded limit => "Evaluation deadline of " ++ limit.text ++ " exceeded"
  | .cancelled => "Evaluation cancelled"
  | .validation violations => "Validation failed: " ++ violations.text
  | .persistence fault => "Persistence error: " ++ fault.text
  | .credential fault => "Credential error: " ++ fault.text
  | .config fault => "Configuration error: " ++ fault.text
  | .file fault => "I/O error: " ++ fault.text
  | .serialization refusal => "Serialization error: " ++ refusal.text

def cause? : Error → Option String
  | .file fault => some fault.text
  | .serialization refusal => some refusal.text
  | _ => none

end Error

namespace Violations

def toResult (vs : Violations) : Except Error Unit :=
  if vs.isEmpty then .ok () else .error (.validation vs)

end Violations

end RolloutWatch

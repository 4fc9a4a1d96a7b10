import RolloutWatch.Json.Refusal

/-!
What can go wrong between the program and a telemetry backend. The detail is a message, or
the refusal of a document that the other side handed over.
-/

namespace RolloutWatch

inductive DriverErrorKind where
  | connection
  | spec
  | request
  | backend
  | decode
  | unavailable
  deriving DecidableEq

namespace DriverErrorKind

def heading : DriverErrorKind → String
  | .connection => "invalid connection config"
  | .spec => "invalid query spec"
  | .request => "request failed"
  | .backend => "backend error"
  | .decode => "malformed response"
  | .unavailable => "driver unavailable"

end DriverErrorKind

inductive DriverErrorDetail where
  | message (text : String)
  | refusal (r : Json.Refusal)
  deriving DecidableEq

namespace DriverErrorDetail

def text : DriverErrorDetail → String
  | .message text => text
  | .refusal r => r.text

end DriverErrorDetail

structure DriverError where
  kind : DriverErrorKind
  detail : DriverErrorDetail
  deriving DecidableEq

namespace DriverError

def text (e : DriverError) : String :=
  e.kind.heading ++ ": " ++ e.detail.text

def of (kind : DriverErrorKind) (message : String) : DriverError :=
  { kind, detail := .message message }

def refused (kind : DriverErrorKind) (document : List UInt8) : DriverError :=
  { kind, detail := .refusal (Json.Refusal.ofBytes document) }

end DriverError

end RolloutWatch

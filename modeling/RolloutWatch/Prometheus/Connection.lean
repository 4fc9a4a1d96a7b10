import RolloutWatch.Driver.Error
import RolloutWatch.Json.Decoder
import RolloutWatch.Text.Blank

/-!
The configuration of a connection: where the backend is, and the token that it wants.
-/

namespace RolloutWatch.Prometheus

structure Connection where
  url : String
  bearerToken : Option String
  deriving DecidableEq

namespace Connection

def decoder : Json.Decoder Connection :=
  Json.Decoder.entity ["url", "bearerToken"] fun fields => do
    let url ← fields.required "url" Json.Decoder.text
    let bearerToken ←
      fields.orDefault "bearerToken" (Json.Decoder.nullable Json.Decoder.text) none
    pure { url, bearerToken }

def ofBytes (bytes : List UInt8) : Except DriverError Connection :=
  match Json.Decoder.readBytes? decoder bytes with
  | none => .error (.refused .connection bytes)
  | some connection =>
      if Blank.isBlank connection.url then .error (.of .connection "url is required")
      else .ok connection

/-- The address of the query interface: trailing slashes go before the path is put behind. -/
def endpoint (c : Connection) : List Char :=
  (c.url.toList.reverse.dropWhile (· = '/')).reverse ++ "/api/v1/query".toList

end Connection

end RolloutWatch.Prometheus

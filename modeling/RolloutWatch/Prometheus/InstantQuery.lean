import RolloutWatch.Prometheus.Connection
import RolloutWatch.Prometheus.Expression
import RolloutWatch.Prometheus.Response
import RolloutWatch.Web.Exchange

/-!
An instant query from the connection's document and the question's document to a result. The
documents are looked at first, so a fault in one of them is found before anything is sent.
-/

namespace RolloutWatch.Prometheus

/-- What came of a query: the request, if one could be built, the reply to it, and the
answer, which is missing as long as the backend is silent. -/
structure Asked where
  request : Option Request
  reply : Option Reply
  answer : Except DriverError Json.Value

def failed (e : DriverError) : Asked :=
  { request := none, reply := none, answer := .error e }

def requestFailed (message : String) : DriverError :=
  .of .request message

/-- A token may be sent if it has no control characters but tabs. -/
def isSendable (token : String) : Bool :=
  token.toList.all fun c => c = '\t' || (0x20 ≤ c.toNat && c.toNat ≠ 0x7F)

def request (c : Connection) (expression : String) : Except DriverError Request :=
  match Url.ofText? c.endpoint with
  | none =>
      match Url.scheme? (Url.cleaned c.endpoint) with
      | some (scheme, rest) =>
          if (Url.webPort? scheme).isSome then .error (requestFailed "builder error")
          else
            .error (requestFailed
              ("builder error for url (" ++ String.ofList (scheme ++ ':' :: rest) ++ ")"))
      | none => .error (requestFailed "builder error")
  | some url =>
      let url := url.withParameter "query" expression
      match c.bearerToken with
      | none => .ok { url, authorization := none }
      | some token =>
          if token = "" then .ok { url, authorization := none }
          else if isSendable token then .ok { url, authorization := some ("Bearer " ++ token) }
          else .error (requestFailed "builder error")

/-- The answer in a reply. An answer without a document in it is an error of the backend if
its status says so. -/
def readReply (r : Request) : Reply → Except DriverError Json.Value
  | .answered status body =>
      let text := bodyText body
      match Json.Value.ofBytes? (Utf8.ofString text) with
      | some document => response document
      | none =>
          if Status.isSuccess status then .error (.refused .decode (Utf8.ofString text))
          else
            .error (.of .backend
              ("HTTP " ++ Status.text status ++ ": " ++ Blank.trimmed text))
  | _ =>
      .error (requestFailed
        ("error sending request for url (" ++ String.ofList r.url.chars ++ ")"))

def query (network : Network) (connection spec : List UInt8) : Asked :=
  match Connection.ofBytes connection with
  | .error e => failed e
  | .ok c =>
      match QuerySpec.ofBytes? spec with
      | none => failed (.refused .spec spec)
      | some question =>
          match expression question with
          | .error e => failed e
          | .ok text =>
              match request c text with
              | .error e => failed e
              | .ok r =>
                  let reply := network r
                  { request := some r, reply := some reply, answer := readReply r reply }

end RolloutWatch.Prometheus

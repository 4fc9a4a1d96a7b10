import RolloutWatch.Driver.Error
import RolloutWatch.Driver.Reading

/-!
Answers to instant queries. Only a success with a finite sample is a result; everything else
is an error of the backend or a malformed response.
-/

namespace RolloutWatch.Prometheus

def decodeError {α : Type} (message : String) : Except DriverError α :=
  .error (.of .decode message)

def memberText? (key : String) (document : Json.Value) : Option String :=
  (document.member? key).bind Json.Value.asText?

def sample (data : Json.Value) : Except DriverError Json.Value :=
  match memberText? "resultType" data with
  | none => decodeError "missing resultType"
  | some resultType =>
      match data.member? "result" with
      | none => decodeError "missing result"
      | some result =>
          if resultType = "vector" then
            match result with
            | .array [] => .error (.of .backend "no samples")
            | .array (first :: _) =>
                match first.member? "value" with
                | none => decodeError "sample without value"
                | some value => .ok value
            | _ => decodeError "vector result is not an array"
          else if resultType = "scalar" then .ok result
          else decodeError ("unsupported result type " ++ resultType)

def response (document : Json.Value) : Except DriverError Json.Value :=
  if memberText? "status" document = some "success" then
    match document.member? "data" with
    | none => decodeError "missing data"
    | some data =>
        match sample data with
        | .error e => .error e
        | .ok value =>
            match Reading.ofResult? value with
            | some x => .ok (Reading.toResult x)
            | none => decodeError ("non-numeric sample " ++ value.render)
  else
    let message := (memberText? "error" document).getD "unknown error"
    let kind := (memberText? "errorType" document).getD "error"
    .error (.of .backend (kind ++ ": " ++ message))

end RolloutWatch.Prometheus

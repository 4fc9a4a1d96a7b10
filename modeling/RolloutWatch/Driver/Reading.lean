import RolloutWatch.Json.Printer
import RolloutWatch.Text.Blank

/-!
The numeric reading of a query result. A result may be a number, a numeric text, or an array
whose last item gives the reading; what is not finite is no reading.
-/

namespace RolloutWatch.Reading

def ofText? (s : String) : Option Binary64 :=
  Binary64.ofText? (Blank.trim s.toList)

mutual

def raw? : Json.Value → Option Binary64
  | .number n => some n.toBinary64
  | .text s => ofText? s
  | .array items => rawLast? items
  | _ => none

def rawLast? : List Json.Value → Option Binary64
  | [] => none
  | [last] => raw? last
  | _ :: rest => rawLast? rest

end

def ofResult? (result : Json.Value) : Option Binary64 :=
  (raw? result).filter Binary64.isFinite

def toResult (x : Binary64) : Json.Value :=
  if x.isFinite then .number (.real x) else .null

end RolloutWatch.Reading

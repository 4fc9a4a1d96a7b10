import RolloutWatch.Number.Binary64
import RolloutWatch.Text.Upper
import RolloutWatch.Json.Decoder

/-!
The comparison between a reading and a threshold, and whether a watched metric has got there.
Names in text are read in any case; names in documents as they are declared.
-/

namespace RolloutWatch

inductive Condition where
  | equal
  | greaterThan
  | lessThan
  deriving DecidableEq

namespace Condition

/-- Comparisons are numeric: no comparison holds of a NaN, and the two zeros are equal. -/
def isMet (condition : Condition) (value threshold : Binary64) : Bool :=
  match condition with
  | .equal => value.eqv threshold
  | .greaterThan => threshold.below value
  | .lessThan => value.below threshold

def name : Condition → String
  | .equal => "EQUAL"
  | .greaterThan => "GREATER_THAN"
  | .lessThan => "LESS_THAN"

def ofName? (s : String) : Option Condition :=
  if s = "EQUAL" ∨ s = "=" then some .equal
  else if s = "GREATER_THAN" ∨ s = "GREATER_THEN" ∨ s = ">" then some .greaterThan
  else if s = "LESS_THAN" ∨ s = "LOWER_THEN" ∨ s = "<" then some .lessThan
  else none

def ofText? (s : String) : Option Condition :=
  ofName? (Upper.text s)

def unreadable (s : String) : String :=
  "Invalid condition: " ++ s

def decoder : Json.Decoder Condition :=
  Json.Decoder.named ofName?

end Condition

/-- A metric is watched until its condition has been met. -/
inductive ExecutionStatus where
  | active
  | reached
  deriving DecidableEq

namespace ExecutionStatus

def name : ExecutionStatus → String
  | .active => "ACTIVE"
  | .reached => "REACHED"

def ofName? (s : String) : Option ExecutionStatus :=
  if s = "ACTIVE" then some .active
  else if s = "REACHED" then some .reached
  else none

def ofText? (s : String) : Option ExecutionStatus :=
  ofName? (Upper.text s)

def unreadable (s : String) : String :=
  "Invalid execution status: " ++ s

def decoder : Json.Decoder ExecutionStatus :=
  Json.Decoder.named ofName?

end ExecutionStatus

end RolloutWatch

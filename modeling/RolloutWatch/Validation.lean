import RolloutWatch.Number.Decimal

/-!
Violated rules, each on a named field. Validation never stops at the first one, so that all
of them can be reported together; a nested entity's fields are named by their path.
-/

namespace RolloutWatch

structure Violation where
  field : String
  message : String
  deriving DecidableEq

namespace Violation

def text (v : Violation) : String :=
  v.field ++ ": " ++ v.message

/-- The same violation seen from the entity that holds the violated one under `path`. -/
def under (path : String) (v : Violation) : Violation :=
  { v with field := path ++ "." ++ v.field }

end Violation

structure Violations where
  list : List Violation
  deriving DecidableEq

namespace Violations

def none : Violations :=
  { list := [] }

def push (vs : Violations) (field message : String) : Violations :=
  { list := vs.list ++ [{ field, message }] }

def check (vs : Violations) (failed : Bool) (field message : String) : Violations :=
  if failed then vs.push field message else vs

def nest (vs : Violations) (path : String) (inner : Violations) : Violations :=
  { list := vs.list ++ inner.list.map (Violation.under path) }

def size (vs : Violations) : Nat :=
  vs.list.length

def isEmpty (vs : Violations) : Bool :=
  vs.list.isEmpty

def hasField (vs : Violations) (field : String) : Bool :=
  vs.list.any fun v => v.field = field

def text (vs : Violations) : String :=
  "; ".intercalate (vs.list.map Violation.text)

def itemPath (listName : String) (index : Nat) : String :=
  listName ++ "[" ++ String.ofList (Digits.ofNat index) ++ "]"

end Violations

end RolloutWatch

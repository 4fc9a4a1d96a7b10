import RolloutWatch.Error

/-!
How a command ends: its exit code, what it says, and what it says of a failure. A failure is
told with everything beneath it, from the outermost cause down.
-/

namespace RolloutWatch

structure Failure where
  text : String
  causes : List String
  deriving DecidableEq

namespace Failure

def ofError (e : Error) : Failure :=
  { text := e.text, causes := e.cause?.toList }

def within (context : String) (f : Failure) : Failure :=
  { text := context, causes := f.text :: f.causes }

def hanging (first rest text : String) : String :=
  first ++ ("\n" ++ rest).intercalate (text.splitOn "\n")

def numberedCause (number : Nat) (cause : String) : String :=
  hanging (String.ofList ((Digits.ofNat number).leftpad 5 ' ') ++ ": ") "       " cause

def numberedCauses : Nat → List String → List String
  | _, [] => []
  | number, cause :: rest => numberedCause number cause :: numberedCauses (number + 1) rest

def causeLines : List String → List String
  | [] => []
  | [cause] => ["", "Caused by:", hanging "    " "    " cause]
  | causes => "" :: "Caused by:" :: numberedCauses 0 causes

def message (f : Failure) : String :=
  "\n".intercalate (("Error: " ++ f.text) :: causeLines f.causes) ++ "\n"

end Failure

/-- Nothing is said of a failure if there is none. A command that is to be performed again
says after which time. -/
structure Completion where
  code : Nat
  output : String
  message : String
  again : Option Elapsed

namespace Completion

def succeeded (output : String) : Completion :=
  { code := 0, output, message := "", again := none }

def repeating (interval : Elapsed) : Completion :=
  { code := 0, output := "", message := "", again := some interval }

def failed (f : Failure) : Completion :=
  { code := 1, output := "", message := f.message, again := none }

def misused (usage : String) : Completion :=
  { code := 2, output := "", message := usage, again := none }

end Completion

end RolloutWatch

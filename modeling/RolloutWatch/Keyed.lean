/-!
Tables with one entry for a key, in the order of the keys. Putting an entry takes the place
of an earlier one of the same key.
-/

namespace RolloutWatch.Keyed

variable {α : Type}

def put (key : String) (entry : α) : List (String × α) → List (String × α)
  | [] => [(key, entry)]
  | (k, e) :: rest =>
      if key = k then (key, entry) :: rest
      else if key < k then (key, entry) :: (k, e) :: rest
      else (k, e) :: put key entry rest

def get? (key : String) (table : List (String × α)) : Option α :=
  (table.find? fun entry => entry.1 = key).map Prod.snd

end RolloutWatch.Keyed

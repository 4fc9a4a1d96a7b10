import RolloutWatch.Json.Value
import RolloutWatch.Supply

/-!
Readers of typed entities. An entity is an object whose known members stand at most once
and whose other members are passed over, or an array of its fields in their declared order.
A field that is left out may take a default, and a default may draw on the supply.
-/

namespace RolloutWatch.Json

/-- Reads a thing from a tree. The number counts the levels of nesting still allowed. -/
abbrev Decoder (α : Type) := Nat → Tree → StateT Supply Option α

namespace Decoder

def leaf {α : Type} (read? : Tree → Option α) : Decoder α :=
  fun _ tree => (read? tree : Option α)

def text? : Tree → Option String
  | .text t => WrittenText.decode? t
  | _ => none

def text : Decoder String :=
  leaf text?

def binary64? : Tree → Option Binary64
  | .number n => (Numeral.number? n).map Number.toBinary64
  | _ => none

def binary64 : Decoder Binary64 :=
  leaf binary64?

def natural? : Tree → Option Nat
  | .number n =>
      match Numeral.number? n with
      | some (.integer i) => if 0 ≤ i then some i.toNat else none
      | _ => none
  | _ => none

def natural : Decoder Nat :=
  leaf natural?

def value : Decoder Value :=
  fun levels tree => (Value.ofTree? levels tree : Option Value)

def parsed {α : Type} (parse? : String → Option α) : Decoder α :=
  leaf fun tree => (text? tree).bind parse?

def named {α : Type} (parse? : String → Option α) : Decoder α := fun levels tree =>
  match tree with
  | .text t => ((WrittenText.decode? t).bind parse? : Option α)
  | .object [(key, .null)] =>
      if levels ≤ 1 then failure else ((WrittenText.decode? key).bind parse? : Option α)
  | _ => failure

def items {α : Type} (read : Decoder α) (levels : Nat) :
    List Tree → StateT Supply Option (List α)
  | [] => pure []
  | tree :: rest => do
      let first ← read levels tree
      let more ← items read levels rest
      pure (first :: more)

def list {α : Type} (read : Decoder α) : Decoder (List α) := fun levels tree =>
  match tree with
  | .array trees => if levels ≤ 1 then failure else items read (levels - 1) trees
  | _ => failure

def nullable {α : Type} (read : Decoder α) : Decoder (Option α) := fun levels tree =>
  match tree with
  | .null => pure none
  | other => some <$> read levels other

end Decoder

/-- The known fields of an entity that are there. -/
structure Fields where
  levels : Nat
  positional : Bool
  present : List (String × Tree)

namespace Fields

/-- The members whose key is a known name; none of these may come twice. -/
def known? (names : List String) :
    List (WrittenText × Tree) → Option (List (String × Tree))
  | [] => some []
  | (written, tree) :: rest => do
      let key ← WrittenText.decode? written
      let more ← known? names rest
      if key ∈ names then
        if more.any fun m => m.1 = key then none else pure ((key, tree) :: more)
      else pure more

def ofTree? (names : List String) (levels : Nat) : Tree → Option Fields
  | .object members =>
      if levels ≤ 1 then none
      else
        (known? names members).map fun present =>
          { levels := levels - 1, positional := false, present }
  | .array trees =>
      if levels ≤ 1 ∨ names.length < trees.length then none
      else some { levels := levels - 1, positional := true, present := names.zip trees }
  | _ => none

def find? (f : Fields) (name : String) : Option Tree :=
  Keyed.get? name f.present

def required {α : Type} (f : Fields) (name : String) (read : Decoder α) :
    StateT Supply Option α :=
  match f.find? name with
  | some tree => read f.levels tree
  | none => failure

def orElse {α : Type} (f : Fields) (name : String) (read : Decoder α)
    (absent : StateT Supply Option α) : StateT Supply Option α :=
  match f.find? name with
  | some tree => read f.levels tree
  | none => absent

def orDefault {α : Type} (f : Fields) (name : String) (read : Decoder α) (absent : α) :
    StateT Supply Option α :=
  f.orElse name read (pure absent)

/-- A field that may be null, and may be left out of an object but not of an array. -/
def optional {α : Type} (f : Fields) (name : String) (read : Decoder α) :
    StateT Supply Option (Option α) :=
  match f.find? name with
  | some tree => Decoder.nullable read f.levels tree
  | none => if f.positional then failure else pure none

end Fields

namespace Decoder

def freshId : StateT Supply Option EntityId :=
  fun supply => some supply.freshId

def now : StateT Supply Option Instant :=
  fun supply => some supply.now

def entity {α : Type} (names : List String) (build : Fields → StateT Supply Option α) :
    Decoder α := fun levels tree =>
  match Fields.ofTree? names levels tree with
  | some fields => build fields
  | none => failure

def run? {α : Type} (read : Decoder α) (tree : Tree) (supply : Supply) : Option (α × Supply) :=
  read levelLimit tree supply

def ofBytes? {α : Type} (read : Decoder α) (bytes : List UInt8) (supply : Supply) :
    Option (α × Supply) :=
  (Tree.ofBytes? bytes).bind fun tree => run? read tree supply

def readBytes? {α : Type} (read : Decoder α) (bytes : List UInt8) : Option α :=
  (ofBytes? read bytes .idle).map Prod.fst

end Decoder

end RolloutWatch.Json

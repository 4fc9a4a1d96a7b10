import RolloutWatch.Json.Decoder
import RolloutWatch.Proofs.Json.Document
import Mathlib.Data.List.Forall2

/-!
Readers of entities on printed values: what a reader makes of a tree without drawing on the
supply, and the readers of texts and of lists on the trees that are written for them.
-/

namespace RolloutWatch.Json.Decoder

variable {α : Type}

/-- The reader takes the tree for a thing and leaves the supply as it is. -/
def Reads (read : Decoder α) (levels : Nat) (tree : Tree) (a : α) : Prop :=
  ∀ supply, read levels tree supply = some (a, supply)

theorem text_legible (s : String) : (Value.text s).Legible :=
  trivial

theorem leaf_reads {read? : Tree → Option α} {tree : Tree} {a : α} (read : read? tree = some a)
    (levels : Nat) : Reads (leaf read?) levels tree a := by
  intro supply
  unfold leaf
  rw [read]
  rfl

theorem text_reads (levels : Nat) (s : String) : Reads text levels (Value.text s).tree s :=
  leaf_reads (WrittenText.decode_written s) levels

theorem parsed_reads {parse? : String → Option α} {s : String} {a : α} (parses : parse? s = some a)
    (levels : Nat) : Reads (parsed parse?) levels (Value.text s).tree a := by
  refine leaf_reads ?_ levels
  change (WrittenText.decode? (written s)).bind parse? = some a
  rw [WrittenText.decode_written, Option.bind_some, parses]

theorem named_reads {parse? : String → Option α} {s : String} {a : α} (parses : parse? s = some a)
    (levels : Nat) : Reads (named parse?) levels (Value.text s).tree a := by
  intro supply
  change ((WrittenText.decode? (written s)).bind parse? : StateT Supply Option α) supply = _
  rw [WrittenText.decode_written, Option.bind_some, parses]
  rfl

theorem items_reads {read : Decoder α} {levels : Nat} {trees : List Tree} {values : List α}
    (each : List.Forall₂ (Reads read levels) trees values) (supply : Supply) :
    items read levels trees supply = some (values, supply) := by
  induction each with
  | nil => rfl
  | cons first rest ih =>
      rw [items]
      change ((read levels _ supply).bind fun result =>
        (items read levels _ result.2).bind fun more => some (result.1 :: more.1, more.2)) = _
      rw [first supply, Option.bind_some, ih, Option.bind_some]

theorem list_reads {read : Decoder α} {levels : Nat} (deep : 1 < levels) {trees : List Tree}
    {values : List α} (each : List.Forall₂ (Reads read (levels - 1)) trees values) :
    Reads (list read) levels (.array trees) values := by
  intro supply
  have opened : list read levels (.array trees) = items read (levels - 1) trees :=
    if_neg (by omega)
  rw [opened]
  exact items_reads each supply

theorem trees_eq_map (values : List Value) : Value.trees values = values.map Value.tree := by
  induction values with
  | nil => rfl
  | cons value rest ih => rw [Value.trees, ih, List.map_cons]

theorem legibleItems {values : List Value} (legible : ∀ v ∈ values, v.Legible) :
    Value.LegibleItems values := by
  induction values with
  | nil => trivial
  | cons value rest ih =>
      exact ⟨legible value List.mem_cons_self,
        ih fun v member => legible v (List.mem_cons_of_mem _ member)⟩

theorem legibleItems_map {toJson : α → Value} {values : List α}
    (legible : ∀ a ∈ values, (toJson a).Legible) : Value.LegibleItems (values.map toJson) := by
  refine legibleItems fun v member => ?_
  obtain ⟨a, inside, rfl⟩ := List.mem_map.mp member
  exact legible a inside

theorem list_map_reads {read : Decoder α} {toJson : α → Value} {levels : Nat} (deep : 1 < levels)
    {values : List α} (reads : ∀ a ∈ values, Reads read (levels - 1) (toJson a).tree a) :
    Reads (list read) levels (Value.array (values.map toJson)).tree values := by
  refine list_reads deep ?_
  rw [trees_eq_map, List.map_map, List.forall₂_map_left_iff]
  exact List.forall₂_same.mpr reads

theorem texts_legible (texts : List String) : Value.LegibleItems (texts.map Value.text) :=
  legibleItems_map fun s _ => text_legible s

theorem texts_reads {levels : Nat} (deep : 1 < levels) (texts : List String) :
    Reads (list text) levels (Value.array (texts.map Value.text)).tree texts :=
  list_map_reads deep fun s _ => text_reads _ s

theorem readBytes_bytes {read : Decoder α} {v : Value} {a : α} (legible : v.Legible)
    (reads : Reads read levelLimit v.tree a) : readBytes? read v.bytes = some a := by
  unfold readBytes? ofBytes? run?
  rw [Value.ofBytes_bytes v legible, Option.bind_some, reads]
  rfl

/-- A printed list of printable things is read back. -/
theorem readBytes_list {read : Decoder α} {toJson : α → Value}
    (legible : ∀ a, (toJson a).Legible)
    (reads : ∀ a, Reads read (levelLimit - 1) (toJson a).tree a) (values : List α) :
    readBytes? (list read) (Value.array (values.map toJson)).bytes = some values :=
  readBytes_bytes (legibleItems_map fun a _ => legible a)
    (list_map_reads (by decide) fun a _ => reads a)

end RolloutWatch.Json.Decoder

import RolloutWatch.Proofs.Json.Entities
import RolloutWatch.Proofs.Json.Members
import RolloutWatch.Proofs.Json.Numeral
import RolloutWatch.Proofs.Json.Reads

/-!
Readers of entities on objects that were printed for them. Such an object has the fields in their
order, so the reader finds under each name what was printed there. A binary number is found again
only if its numeral is read as that number.
-/

namespace RolloutWatch.Json

namespace Fields

def ofMembers (levels : Nat) (members : List (String × Value)) : Fields :=
  { levels, positional := false, present := members.map fun (key, v) => (key, v.tree) }

theorem memberTrees_eq_map (members : List (String × Value)) :
    Value.memberTrees members = members.map fun (key, v) => (written key, v.tree) := by
  induction members with
  | nil => rfl
  | cons member rest ih =>
      obtain ⟨key, v⟩ := member
      rw [Value.memberTrees, ih, List.map_cons]

theorem known_memberTrees {names : List String} {members : List (String × Value)}
    (keys : members.map Prod.fst = names) (once : names.Nodup) :
    known? names (Value.memberTrees members) =
      some (members.map fun (key, v) => (key, v.tree)) := by
  have presentKeys : (members.map fun (key, v) => (key, Value.tree v)).map Prod.fst = names := by
    rw [List.map_map, ← keys]
    rfl
  refine known_iff.mpr ⟨⟨members.map fun (key, v) => (key, v.tree), ?_, ?_⟩, ?_⟩
  · rw [memberTrees_eq_map, List.forall₂_map_left_iff, List.forall₂_map_right_iff]
    exact List.forall₂_same.mpr fun member _ => ⟨WrittenText.decode_written member.1, rfl⟩
  · refine (List.filter_eq_self.mpr fun entry inside => decide_eq_true ?_).symm
    rw [← presentKeys]
    exact List.mem_map_of_mem inside
  · rw [presentKeys]
    exact once

theorem ofTree_object {names : List String} {levels : Nat} {members : List (String × Value)}
    (deep : 1 < levels) (keys : members.map Prod.fst = names) (once : names.Nodup) :
    ofTree? names levels (Value.object members).tree = some (ofMembers (levels - 1) members) := by
  rw [Value.tree, ofTree?, if_neg (by omega), known_memberTrees keys once]
  rfl

theorem find?_ofMembers (levels : Nat) (members : List (String × Value)) (name : String) :
    (ofMembers levels members).find? name = (Keyed.get? name members).map Value.tree := by
  unfold find? ofMembers Keyed.get?
  rw [List.find?_map, Option.map_map, Option.map_map]
  rfl

section

variable {α : Type} {levels : Nat} {members : List (String × Value)} {name : String} {v : Value}
  {read : Decoder α} {a : α} (found : Keyed.get? name members = some v)
  (reads : Decoder.Reads read levels v.tree a)

include found reads

theorem required_reads (supply : Supply) :
    (ofMembers levels members).required name read supply = some (a, supply) := by
  unfold required
  rw [find?_ofMembers, found]
  exact reads supply

theorem orElse_reads (absent : StateT Supply Option α) (supply : Supply) :
    (ofMembers levels members).orElse name read absent supply = some (a, supply) := by
  unfold orElse
  rw [find?_ofMembers, found]
  exact reads supply

theorem orDefault_reads (absent : α) (supply : Supply) :
    (ofMembers levels members).orDefault name read absent supply = some (a, supply) :=
  orElse_reads found reads _ supply

end

end Fields

namespace Decoder

variable {α : Type}

/-- A reader of entities on an object that has its fields. -/
theorem entity_reads {names : List String} {build : Fields → StateT Supply Option α}
    {levels : Nat} {members : List (String × Value)} {a : α} (deep : 1 < levels)
    (keys : members.map Prod.fst = names) (once : names.Nodup)
    (built : ∀ supply, build (Fields.ofMembers (levels - 1) members) supply = some (a, supply)) :
    Reads (entity names build) levels (Value.object members).tree a := by
  intro supply
  rw [entity_of_fields (Fields.ofTree_object deep keys once), built]

end Decoder

end RolloutWatch.Json

namespace RolloutWatch

/-! ### Binary numbers -/

namespace Binary64

/-- What is printed for the number in a document is a numeral that is read as the number. -/
def ReadBack (x : Binary64) : Prop :=
  ((Json.Numeral.ofChars? x.jsonText).bind Json.Numeral.number?).map Json.Number.toBinary64 =
    some x

instance (x : Binary64) : Decidable x.ReadBack :=
  inferInstanceAs (Decidable (_ = _))

structure Printable (x : Binary64) : Prop where
  finite : x.isFinite = true
  back : x.ReadBack

namespace Printable

variable {x : Binary64} (printable : x.Printable)

include printable

theorem chars : (Json.Number.real x).chars = x.jsonText :=
  if_pos printable.finite

theorem exists_numeral : ∃ numeral number, Json.Numeral.ofChars? (Json.Number.real x).chars =
    some numeral ∧ Json.Numeral.number? numeral = some number ∧ number.toBinary64 = x := by
  obtain ⟨number, read, back⟩ := Option.map_eq_some_iff.mp printable.back
  obtain ⟨numeral, text, numbered⟩ := Option.bind_eq_some_iff.mp read
  exact ⟨numeral, number, by rw [printable.chars, text], numbered, back⟩

theorem legible : (Json.Value.number (.real x)).Legible := by
  obtain ⟨numeral, -, text, -⟩ := printable.exists_numeral
  exact Json.Number.legible_of_ofChars text

theorem reads (levels : Nat) :
    Json.Decoder.Reads Json.Decoder.binary64 levels (Json.Value.number (.real x)).tree x := by
  obtain ⟨numeral, number, text, numbered, back⟩ := printable.exists_numeral
  refine Json.Decoder.leaf_reads ?_ levels
  rw [Json.Value.tree, Json.Number.tree_of_ofChars text, Json.Decoder.binary64?, numbered,
    Option.map_some, back]

end Printable

end Binary64

end RolloutWatch

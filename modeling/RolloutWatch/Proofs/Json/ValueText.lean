import RolloutWatch.Proofs.Json.Numeral
import RolloutWatch.Proofs.Keyed

/-!
Values are read back from their printed texts, as far as levels allow. The numbers are integers
here: the digits of a binary number are not always read back as that number. An object keeps its
members because their keys ascend, so each of them is put behind the ones before it.
-/

namespace RolloutWatch.Json.Value

mutual

/-- A value without binary numbers. Its integers have 64 bits, signed or unsigned, and the keys
of each object are in order. -/
def Integral : Value → Prop
  | .number n => n.IsInteger64
  | .array items => IntegralItems items
  | .object members => Keyed.Ascending members ∧ IntegralMembers members
  | _ => True

def IntegralItems : List Value → Prop
  | [] => True
  | value :: rest => Integral value ∧ IntegralItems rest

def IntegralMembers : List (String × Value) → Prop
  | [] => True
  | (_, value) :: rest => Integral value ∧ IntegralMembers rest

end

mutual

/-- How many arrays and objects stand within each other. -/
def depth : Value → Nat
  | .array items => depthItems items + 1
  | .object members => depthMembers members + 1
  | _ => 0

def depthItems : List Value → Nat
  | [] => 0
  | value :: rest => max (depth value) (depthItems rest)

def depthMembers : List (String × Value) → Nat
  | [] => 0
  | (_, value) :: rest => max (depth value) (depthMembers rest)

end

mutual

theorem legible_of_integral : (v : Value) → v.Integral → v.Legible
  | .null, _ => trivial
  | .bool _, _ => trivial
  | .number (.integer i), _ => Number.legible_of_ofChars (ofChars_ofInt i)
  | .number (.real _), integral => absurd integral id
  | .text _, _ => trivial
  | .array items, integral => legibleItems_of_integral items integral
  | .object members, integral => legibleMembers_of_integral members integral.2

theorem legibleItems_of_integral : (items : List Value) → IntegralItems items →
    LegibleItems items
  | [], _ => trivial
  | value :: rest, integral =>
      ⟨legible_of_integral value integral.1, legibleItems_of_integral rest integral.2⟩

theorem legibleMembers_of_integral : (members : List (String × Value)) →
    IntegralMembers members → LegibleMembers members
  | [], _ => trivial
  | (_, value) :: rest, integral =>
      ⟨legible_of_integral value integral.1, legibleMembers_of_integral rest integral.2⟩

end

theorem number_tree {n : Number} (integer : n.IsInteger64) (levels : Nat) :
    ofTree? levels n.tree = some (.number n) := by
  cases n with
  | integer i =>
      have reads := Number.number_ofInt i integer.1 integer.2
      rw [ofChars_ofInt, Option.bind_some] at reads
      rw [Number.tree_of_ofChars (n := .integer i) (ofChars_ofInt i), ofTree?, reads]
      rfl
  | real x => exact absurd integer id

mutual

theorem ofTree_tree : (v : Value) → v.Integral → (levels : Nat) → v.depth < levels →
    ofTree? levels v.tree = some v
  | .null, _, _, _ => rfl
  | .bool _, _, _, _ => rfl
  | .number _, integral, levels, _ => number_tree integral levels
  | .text s, _, _, _ => by
      rw [tree, ofTree?, WrittenText.decode_written]
      rfl
  | .array items, integral, levels, deep => by
      rw [depth] at deep
      have more : ¬levels ≤ 1 := by omega
      rw [tree, ofTree?, if_neg more, ofItems_trees items integral (levels - 1) (by omega)]
      rfl
  | .object members, integral, levels, deep => by
      rw [depth] at deep
      have more : ¬levels ≤ 1 := by omega
      rw [tree, ofTree?, if_neg more,
        ofMembers_memberTrees members integral.2 (levels - 1) (by omega) [] integral.1]
      rfl

theorem ofItems_trees : (items : List Value) → IntegralItems items → (levels : Nat) →
    depthItems items < levels → ofItems? levels (trees items) = some items
  | [], _, _, _ => rfl
  | value :: rest, integral, levels, deep => by
      rw [depthItems] at deep
      rw [trees, ofItems?, ofTree_tree value integral.1 levels (by omega),
        ofItems_trees rest integral.2 levels (by omega)]
      rfl

/-- Every further key is beyond the keys of the members before it. -/
theorem ofMembers_memberTrees : (members : List (String × Value)) →
    IntegralMembers members → (levels : Nat) → depthMembers members < levels →
    (before : List (String × Value)) → Keyed.Ascending (before ++ members) →
    ofMembers? levels (memberTrees members) before = some (before ++ members)
  | [], _, _, _, before, _ => by
      rw [memberTrees, ofMembers?, List.append_nil]
  | (key, value) :: rest, integral, levels, deep, before, ascending => by
      rw [depthMembers] at deep
      have beyond : ∀ k ∈ before.map Prod.fst, k < key := by
        intro k member
        unfold Keyed.Ascending at ascending
        rw [List.map_append] at ascending
        exact (List.pairwise_append.mp ascending).2.2 k member key List.mem_cons_self
      have split : before ++ (key, value) :: rest = before ++ [(key, value)] ++ rest := by
        rw [List.append_assoc, List.singleton_append]
      rw [split] at ascending ⊢
      have others := ofMembers_memberTrees rest integral.2 levels (by omega) _ ascending
      rw [memberTrees, ofMembers?, WrittenText.decode_written,
        ofTree_tree value integral.1 levels (by omega)]
      change ofMembers? levels (memberTrees rest) (Keyed.put key value before) = _
      rw [Keyed.put_last value beyond, others]

end

/-- A printed value is read back, unless it has more levels than a reader takes. -/
theorem ofBytes_of_bytes {v : Value} (integral : v.Integral) (deep : v.depth < levelLimit) :
    ofBytes? v.bytes = some v := by
  unfold ofBytes?
  rw [ofBytes_bytes v (legible_of_integral v integral), Option.bind_some,
    ofTree_tree v integral levelLimit deep]

end RolloutWatch.Json.Value

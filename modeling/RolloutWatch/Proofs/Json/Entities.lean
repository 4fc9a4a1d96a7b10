import RolloutWatch.Json.Decoder

/-!
Readers of entities step by step. A reader goes through the fields one after the other and hands
on what is left of the supply; a list whose items are read one by one is read as a changed list
if one item of it is read as a changed one.
-/

namespace RolloutWatch.Json

namespace Decoder

variable {α β : Type}

theorem bind_eq_some_iff {first : StateT Supply Option α} {next : α → StateT Supply Option β}
    {supply : Supply} {result : β × Supply} :
    (first >>= next) supply = some result ↔
      ∃ a between, first supply = some (a, between) ∧ next a between = some result := by
  change ((first supply).bind fun taken => next taken.1 taken.2) = some result ↔ _
  rw [Option.bind_eq_some_iff, Prod.exists]

theorem bind_of_some {first : StateT Supply Option α} {next : α → StateT Supply Option β}
    {supply between : Supply} {a : α} (read : first supply = some (a, between)) :
    (first >>= next) supply = next a between := by
  change ((first supply).bind fun taken => next taken.1 taken.2) = _
  rw [read, Option.bind_some]

theorem bind_of_none {first : StateT Supply Option α} {next : α → StateT Supply Option β}
    {supply : Supply} (refused : first supply = none) : (first >>= next) supply = none := by
  change ((first supply).bind fun taken => next taken.1 taken.2) = _
  rw [refused, Option.bind_none]

theorem entity_eq_some_iff {names : List String} {build : Fields → StateT Supply Option α}
    {levels : Nat} {tree : Tree} {supply : Supply} {result : α × Supply} :
    entity names build levels tree supply = some result ↔
      ∃ fields, Fields.ofTree? names levels tree = some fields ∧
        build fields supply = some result := by
  unfold entity
  cases Fields.ofTree? names levels tree with
  | none =>
      simp only [reduceCtorEq, false_and, exists_false, iff_false]
      exact nofun
  | some fields => simp

theorem entity_of_fields {names : List String} {build : Fields → StateT Supply Option α}
    {levels : Nat} {tree : Tree} {fields : Fields}
    (taken : Fields.ofTree? names levels tree = some fields) :
    entity names build levels tree = build fields := by
  unfold entity
  rw [taken]

theorem ofBytes_of_parsed {read : Decoder α} {bytes : List UInt8} {tree : Tree}
    (parsed : Tree.ofBytes? bytes = some tree) (supply : Supply) :
    ofBytes? read bytes supply = read levelLimit tree supply := by
  unfold ofBytes? run?
  rw [parsed, Option.bind_some]

theorem list_eq_some_iff {read : Decoder α} {levels : Nat} {tree : Tree} {supply : Supply}
    {result : List α × Supply} :
    list read levels tree supply = some result ↔
      ∃ trees, tree = .array trees ∧ 1 < levels ∧
        items read (levels - 1) trees supply = some result := by
  unfold list
  split
  · rename_i trees
    split
    · rename_i shallow
      constructor
      · exact nofun
      · rintro ⟨_, -, deep, -⟩
        omega
    · rename_i deep
      constructor
      · exact fun read => ⟨trees, rfl, by omega, read⟩
      · rintro ⟨_, same, -, read⟩
        cases same
        exact read
  · rename_i other
    constructor
    · exact nofun
    · rintro ⟨trees, same, -, -⟩
      exact absurd same (other trees)

theorem items_set {read : Decoder α} {levels index : Nat} {trees : List Tree}
    {tree edited : Tree} {change : Option (α → α)} (held : trees[index]? = some tree)
    (changed : ∀ supply a after, read levels tree supply = some (a, after) →
      read levels edited supply = change.map fun f => (f a, after))
    {supply after : Supply} {values : List α}
    (all : items read levels trees supply = some (values, after)) :
    index < values.length ∧ items read levels (trees.set index edited) supply =
      change.map fun f => (values.modify index f, after) := by
  induction trees generalizing index supply values with
  | nil => cases held
  | cons first rest ih =>
      obtain ⟨a, between, readFirst, more⟩ := bind_eq_some_iff.mp all
      obtain ⟨others, last, readRest, done⟩ := bind_eq_some_iff.mp more
      cases done
      cases index with
      | zero =>
          obtain rfl : first = tree := Option.some.inj held
          have here := changed _ _ _ readFirst
          refine ⟨Nat.zero_lt_succ _, ?_⟩
          rw [List.set_cons_zero, items]
          cases change with
          | none => exact bind_of_none here
          | some f =>
              rw [bind_of_some here, bind_of_some readRest]
              rfl
      | succ index =>
          obtain ⟨inside, later⟩ := ih held readRest
          refine ⟨Nat.succ_lt_succ inside, ?_⟩
          rw [List.set_cons_succ, items, bind_of_some readFirst]
          cases change with
          | none => exact bind_of_none later
          | some f =>
              rw [bind_of_some later]
              rfl

theorem list_set {read : Decoder α} {levels index : Nat} {trees : List Tree}
    {tree edited : Tree} {change : Option (α → α)} (held : trees[index]? = some tree)
    (changed : ∀ supply a after, read (levels - 1) tree supply = some (a, after) →
      read (levels - 1) edited supply = change.map fun f => (f a, after))
    {supply after : Supply} {values : List α}
    (all : list read levels (.array trees) supply = some (values, after)) :
    index < values.length ∧ list read levels (.array (trees.set index edited)) supply =
      change.map fun f => (values.modify index f, after) := by
  unfold list at all ⊢
  simp only at all ⊢
  split at all
  · cases all
  · rename_i deep
    rw [if_neg deep]
    exact items_set held changed all

end Decoder

end RolloutWatch.Json

import RolloutWatch.Proofs.Json.Members
import RolloutWatch.Proofs.Json.Steady

/-!
Objects without some of their members. What is left of an object is read field by field as the
object was, and a field whose member is gone is read as one that has been left out.
-/

namespace RolloutWatch.Json

namespace Tree

/-- What the document of an entity has for one of its fields: the value of the first member of the
name, or the item at the place of the name. -/
def field? (names : List String) (name : String) : Tree → Option Tree
  | .object members =>
      (members.find? fun member => WrittenText.decode? member.1 = some name).map Prod.snd
  | .array items => Keyed.get? name (names.zip items)
  | _ => none

theorem field?_object (names : List String) (name : String)
    (members : List (WrittenText × Tree)) :
    (Tree.object members).field? names name =
      (members.find? fun member => WrittenText.decode? member.1 = some name).map Prod.snd :=
  rfl

def states (names : List String) (tree : Tree) (name : String) : Bool :=
  (tree.field? names name).isSome

end Tree

/-- Some members are gone, and the value of a member that stays may have been edited in a way that
its key allows. -/
inductive Pruned (edits : WrittenText → Tree → Tree → Prop) :
    List (WrittenText × Tree) → List (WrittenText × Tree) → Prop where
  | nil : Pruned edits [] []
  | dropped (member : WrittenText × Tree) {members kept : List (WrittenText × Tree)}
      (rest : Pruned edits members kept) : Pruned edits (member :: members) kept
  | held {key : WrittenText} {tree edited : Tree} {members kept : List (WrittenText × Tree)}
      (edit : edits key tree edited) (rest : Pruned edits members kept) :
      Pruned edits ((key, tree) :: members) ((key, edited) :: kept)

namespace Fields

theorem get?_cons (name key : String) (tree : Tree) (rest : List (String × Tree)) :
    Keyed.get? name ((key, tree) :: rest) =
      if key = name then some tree else Keyed.get? name rest := by
  unfold Keyed.get?
  rw [List.find?_cons]
  by_cases same : key = name
  · simp [same]
  · simp [same]

theorem mem_keys_of_get? {name : String} {tree : Tree} {present : List (String × Tree)}
    (found : Keyed.get? name present = some tree) : name ∈ present.map Prod.fst := by
  obtain ⟨entry, first, -⟩ := Option.map_eq_some_iff.mp found
  have named := List.find?_some first
  rw [← of_decide_eq_true named]
  exact List.mem_map_of_mem (List.mem_of_find?_eq_some first)

theorem get?_known {names : List String} {name : String} (field : name ∈ names)
    {members : List (WrittenText × Tree)} {present : List (String × Tree)}
    (known : known? names members = some present) :
    Keyed.get? name present = (Tree.object members).field? names name := by
  induction members generalizing present with
  | nil =>
      cases known
      rfl
  | cons member rest ih =>
      obtain ⟨written, tree⟩ := member
      obtain ⟨key, more, decoded, others, here⟩ := known_cons.mp known
      have later := ih others
      rw [Tree.field?_object] at later ⊢
      rw [List.find?_cons]
      by_cases same : key = name
      · subst same
        rw [if_pos field] at here
        rw [← here.2, get?_cons, if_pos rfl]
        simp [decoded]
      · have passed : decide (WrittenText.decode? written = some name) = false := by
          rw [decoded]
          exact decide_eq_false fun equal => same (Option.some.inj equal)
        simp only [passed]
        rw [← later]
        split at here
        · rw [← here.2, get?_cons, if_neg same]
        · rw [here]

theorem find?_eq_field? {names : List String} {levels : Nat} {tree : Tree} {fields : Fields}
    (taken : ofTree? names levels tree = some fields) {name : String} (field : name ∈ names) :
    fields.find? name = tree.field? names name := by
  unfold ofTree? at taken
  split at taken
  · split at taken
    · cases taken
    · obtain ⟨present, known, rfl⟩ := Option.map_eq_some_iff.mp taken
      exact get?_known field known
  · split at taken
    · cases taken
    · cases taken
      rfl
  · cases taken

/-- What is left of an object is known as it was, but for the edits. -/
theorem known_pruned {edits : WrittenText → Tree → Tree → Prop} {names : List String}
    {members kept : List (WrittenText × Tree)} (pruned : Pruned edits members kept)
    {present : List (String × Tree)} (known : known? names members = some present) :
    ∃ left, known? names kept = some left ∧
      (∀ name ∈ left.map Prod.fst, name ∈ present.map Prod.fst) ∧
      ∀ name edited, Keyed.get? name left = some edited →
        ∃ key tree, WrittenText.decode? key = some name ∧
          Keyed.get? name present = some tree ∧ edits key tree edited := by
  induction pruned generalizing present with
  | nil =>
      cases known
      exact ⟨[], rfl, fun _ member => member, fun _ _ found => nomatch found⟩
  | dropped member rest ih =>
      obtain ⟨written, tree⟩ := member
      obtain ⟨key, more, decoded, others, here⟩ := known_cons.mp known
      obtain ⟨left, read, keys, values⟩ := ih others
      split at here
      · obtain ⟨fresh, rfl⟩ := here
        refine ⟨left, read, fun name member => List.mem_cons_of_mem _ (keys name member), ?_⟩
        intro name edited found
        obtain ⟨other, old, named, held, edit⟩ := values name edited found
        have apart : key ≠ name := fun same => fresh (same ▸ keys name (mem_keys_of_get? found))
        exact ⟨other, old, named, by rw [get?_cons, if_neg apart, held], edit⟩
      · subst here
        exact ⟨left, read, keys, values⟩
  | @held written tree edited _ _ edit rest ih =>
      obtain ⟨key, more, decoded, others, here⟩ := known_cons.mp known
      obtain ⟨left, read, keys, values⟩ := ih others
      by_cases field : key ∈ names
      · rw [if_pos field] at here
        obtain ⟨fresh, rfl⟩ := here
        have keptFresh : key ∉ left.map Prod.fst := fun again => fresh (keys key again)
        refine ⟨(key, edited) :: left, known_cons.mpr ⟨key, left, decoded, read, ?_⟩, ?_, ?_⟩
        · rw [if_pos field]
          exact ⟨keptFresh, rfl⟩
        · intro name member
          rcases List.mem_cons.mp member with same | later
          · exact same ▸ List.mem_cons_self
          · exact List.mem_cons_of_mem _ (keys name later)
        · intro name value found
          rw [get?_cons] at found
          split at found
          · rename_i same
            subst same
            cases found
            exact ⟨written, tree, decoded, by rw [get?_cons, if_pos rfl], edit⟩
          · rename_i apart
            obtain ⟨other, old, named, held, edit⟩ := values name value found
            exact ⟨other, old, named, by rw [get?_cons, if_neg apart, held], edit⟩
      · rw [if_neg field] at here
        subst here
        exact ⟨left, known_cons.mpr ⟨key, left, decoded, read, by rw [if_neg field]⟩, keys, values⟩

/-- The fields of a tree that has been edited: those that it states are as they were, but for the
edits that are made under their names. -/
structure Edited (edits : String → Tree → Tree → Prop) (names : List String) (edit : Tree)
    (before after : Fields) : Prop where
  levels : after.levels = before.levels
  named : ∀ name ∈ names, after.find? name = edit.field? names name
  found : ∀ name tree, after.find? name = some tree →
    ∃ old, before.find? name = some old ∧ edits name old tree

theorem ofTree_pruned {edits : WrittenText → Tree → Tree → Prop} {names : List String}
    {levels : Nat} {members kept : List (WrittenText × Tree)} {fields : Fields}
    (pruned : Pruned edits members kept)
    (taken : ofTree? names levels (.object members) = some fields) :
    ∃ left, ofTree? names levels (.object kept) = some left ∧
      Edited (fun name old tree => ∃ key, WrittenText.decode? key = some name ∧ edits key old tree)
        names (.object kept) fields left := by
  have levelled : ¬levels ≤ 1 := by
    intro shallow
    unfold ofTree? at taken
    simp only [if_pos shallow] at taken
    cases taken
  unfold ofTree? at taken
  simp only [if_neg levelled] at taken
  obtain ⟨present, known, rfl⟩ := Option.map_eq_some_iff.mp taken
  obtain ⟨left, read, -, values⟩ := known_pruned pruned known
  have retaken : ofTree? names levels (.object kept) =
      some { levels := levels - 1, positional := false, present := left } := by
    unfold ofTree?
    simp only [if_neg levelled, read]
    rfl
  refine ⟨_, retaken, { levels := rfl, named := fun _ => find?_eq_field? retaken, found := ?_ }⟩
  intro name tree found
  obtain ⟨key, old, named, held, edit⟩ := values name tree found
  exact ⟨old, held, key, named, edit⟩

theorem edited_self {names : List String} {levels : Nat} {tree : Tree} {fields : Fields}
    (taken : ofTree? names levels tree = some fields) :
    Edited (fun _ => Eq) names tree fields fields where
  levels := rfl
  named _ := find?_eq_field? taken
  found _ value held := ⟨value, held, rfl⟩

namespace Edited

variable {α : Type} {edits : String → Tree → Tree → Prop} {names : List String} {edit : Tree}
  {before after : Fields} {name : String} {read : Decoder α} {supply between : Supply} {a : α}

/-- A field that is stated still is read as before; one that is not is drawn from elsewhere. -/
theorem orElse (edited : Edited edits names edit before after) (field : name ∈ names)
    (same : ∀ old tree, edits name old tree → old = tree) (steady : Decoder.Steady read)
    {absent : StateT Supply Option α}
    (once : before.orElse name read absent supply = some (a, between)) (other : Supply) :
    after.orElse name read absent other =
      if edit.states names name then some (a, other) else absent other := by
  unfold Tree.states
  rw [← edited.named name field]
  unfold Fields.orElse at once ⊢
  cases found : after.find? name with
  | none => rfl
  | some tree =>
      obtain ⟨old, held, change⟩ := edited.found name tree found
      rw [held, same old tree change] at once
      simp only [Option.isSome_some, if_true, edited.levels]
      exact steady.reads once other

theorem orDraw (edited : Edited edits names edit before after) (field : name ∈ names)
    (same : ∀ old tree, edits name old tree → old = tree) (steady : Decoder.Steady read)
    {absent : StateT Supply Option α} {draw : Supply → α × Supply}
    (drawn : ∀ supply, absent supply = some (draw supply))
    (once : before.orElse name read absent supply = some (a, between)) (other : Supply) :
    after.orElse name read absent other =
      some (if edit.states names name then (a, other) else draw other) := by
  rw [edited.orElse field same steady once other, drawn]
  split <;> rfl

theorem orDefault (edited : Edited edits names edit before after) (field : name ∈ names)
    (same : ∀ old tree, edits name old tree → old = tree) (steady : Decoder.Steady read)
    {absent : α} (once : before.orDefault name read absent supply = some (a, between))
    (other : Supply) :
    after.orDefault name read absent other =
      some (if edit.states names name then a else absent, other) := by
  refine (edited.orElse field same steady once other).trans ?_
  split <;> rfl

end Edited

end Fields

end RolloutWatch.Json

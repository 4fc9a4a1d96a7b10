import RolloutWatch.Json.Decoder
import Mathlib.Data.List.Forall2
import Mathlib.Data.List.Nodup

/-!
The members of an object as a reader of entities sees them: under their decoded keys, without
those that no field is named for, and refused if a field comes twice. A member that is given
another value, or is put in, changes what is found under its name and nothing else.
-/

namespace RolloutWatch.Json

/-! ### Known members -/

def Named (entry : String × Tree) (member : WrittenText × Tree) : Prop :=
  WrittenText.decode? member.1 = some entry.1 ∧ member.2 = entry.2

namespace Fields

/-- All keys are decoded, and the fields among them are the ones that are known. -/
structure Known (names : List String) (members : List (WrittenText × Tree))
    (present : List (String × Tree)) : Prop where
  decoded : ∃ entries, List.Forall₂ Named entries members ∧
    present = entries.filter fun entry => entry.1 ∈ names
  once : (present.map Prod.fst).Nodup

theorem any_key_iff {key : String} {present : List (String × Tree)} :
    (present.any fun m => m.1 = key) = true ↔ key ∈ present.map Prod.fst := by
  simp only [List.any_eq_true, decide_eq_true_eq, List.mem_map]

theorem known_cons {names : List String} {written : WrittenText} {tree : Tree}
    {rest : List (WrittenText × Tree)} {present : List (String × Tree)} :
    known? names ((written, tree) :: rest) = some present ↔
      ∃ key more, WrittenText.decode? written = some key ∧ known? names rest = some more ∧
        if key ∈ names then key ∉ more.map Prod.fst ∧ (key, tree) :: more = present
        else more = present := by
  have opened : known? names ((written, tree) :: rest) =
      (WrittenText.decode? written).bind fun key => (known? names rest).bind fun more =>
        if key ∈ names then
          if more.any fun m => m.1 = key then none else some ((key, tree) :: more)
        else some more := rfl
  simp only [opened, Option.bind_eq_some_iff]
  constructor
  · rintro ⟨key, decoded, more, others, result⟩
    refine ⟨key, more, decoded, others, ?_⟩
    split at result
    · rename_i field
      split at result
      · cases result
      · rename_i fresh
        rw [if_pos field]
        exact ⟨mt any_key_iff.mpr fresh, Option.some.inj result⟩
    · rename_i field
      rw [if_neg field]
      exact Option.some.inj result
  · rintro ⟨key, more, decoded, others, result⟩
    refine ⟨key, decoded, more, others, ?_⟩
    split at result
    · rename_i field
      rw [if_pos field, if_neg (mt any_key_iff.mp result.1), result.2]
    · rename_i field
      rw [if_neg field, result]

theorem known_iff {names : List String} {members : List (WrittenText × Tree)}
    {present : List (String × Tree)} :
    known? names members = some present ↔ Known names members present := by
  induction members generalizing present with
  | nil =>
      rw [known?, Option.some.injEq]
      constructor
      · rintro rfl
        exact { decoded := ⟨[], .nil, rfl⟩, once := List.nodup_nil }
      · rintro ⟨⟨entries, named, rfl⟩, -⟩
        cases named
        rfl
  | cons member rest ih =>
      obtain ⟨written, tree⟩ := member
      rw [known_cons]
      constructor
      · rintro ⟨key, more, decoded, others, here⟩
        obtain ⟨⟨entries, named, rfl⟩, once⟩ := ih.mp others
        have all : List.Forall₂ Named ((key, tree) :: entries) ((written, tree) :: rest) :=
          .cons ⟨decoded, rfl⟩ named
        split at here
        · rename_i field
          obtain ⟨fresh, rfl⟩ := here
          exact
            { decoded := ⟨_, all, by rw [List.filter_cons_of_pos (by simpa using field)]⟩
              once := List.nodup_cons.mpr ⟨fresh, once⟩ }
        · rename_i field
          subst here
          exact
            { decoded := ⟨_, all, by rw [List.filter_cons_of_neg (by simpa using field)]⟩
              once }
      · rintro ⟨⟨entries, named, rfl⟩, once⟩
        cases named with
        | @cons entry _ entries _ first named =>
            obtain ⟨key, same⟩ := entry
            obtain ⟨decoded, rfl⟩ : _ ∧ tree = same := first
            by_cases field : key ∈ names
            · rw [List.filter_cons_of_pos (by simpa using field)] at once ⊢
              obtain ⟨fresh, others⟩ := List.nodup_cons.mp once
              refine ⟨key, _, decoded, ih.mpr ⟨⟨entries, named, rfl⟩, others⟩, ?_⟩
              rw [if_pos field]
              exact ⟨fresh, rfl⟩
            · rw [List.filter_cons_of_neg (by simpa using field)] at once ⊢
              refine ⟨key, _, decoded, ih.mpr ⟨⟨entries, named, rfl⟩, once⟩, ?_⟩
              rw [if_neg field]

end Fields

/-! ### A member with another value -/

/-- The members differ in one of a given name: it has got the given value, or it has been put
in with this value where there was none of the name. -/
inductive Sets (name : String) (value : Tree) :
    List (WrittenText × Tree) → List (WrittenText × Tree) → Prop where
  | replaced {before after : List (WrittenText × Tree)} {key : WrittenText} (old : Tree)
      (named : WrittenText.decode? key = some name) :
      Sets name value (before ++ (key, old) :: after) (before ++ (key, value) :: after)
  | added {before after : List (WrittenText × Tree)} {key : WrittenText}
      (named : WrittenText.decode? key = some name)
      (absent : ∀ member ∈ before ++ after, WrittenText.decode? member.1 ≠ some name) :
      Sets name value (before ++ after) (before ++ (key, value) :: after)

namespace Fields

theorem get?_insert_self {name : String} (value : Tree) {before after : List (String × Tree)}
    (once : (before.map Prod.fst ++ name :: after.map Prod.fst).Nodup) :
    Keyed.get? name (before ++ (name, value) :: after) = some value := by
  have absent : before.find? (fun entry => entry.1 = name) = none := by
    rw [List.find?_eq_none]
    intro entry member found
    exact (List.nodup_append.mp once).2.2 entry.1 (List.mem_map_of_mem member) name
      List.mem_cons_self (of_decide_eq_true found)
  unfold Keyed.get?
  rw [List.find?_append, absent, Option.none_or, List.find?_cons_of_pos (by simp)]
  rfl

theorem get?_insert_other {name other : String} (differs : other ≠ name) (value : Tree)
    (before after : List (String × Tree)) :
    Keyed.get? other (before ++ (name, value) :: after) = Keyed.get? other (before ++ after) := by
  unfold Keyed.get?
  rw [List.find?_append, List.find?_append,
    List.find?_cons_of_neg (by simpa using differs.symm)]

theorem named_append {entries : List (String × Tree)} {before after : List (WrittenText × Tree)}
    (named : List.Forall₂ Named entries (before ++ after)) :
    ∃ front back, entries = front ++ back ∧ List.Forall₂ Named front before ∧
      List.Forall₂ Named back after :=
  ⟨_, _, (List.take_append_drop before.length entries).symm,
    List.forall₂_take_append _ _ _ named, List.forall₂_drop_append _ _ _ named⟩

theorem key_absent {name : String} {entries : List (String × Tree)}
    {members : List (WrittenText × Tree)} (named : List.Forall₂ Named entries members)
    (absent : ∀ member ∈ members, WrittenText.decode? member.1 ≠ some name) :
    name ∉ entries.map Prod.fst := by
  induction named with
  | nil => exact List.not_mem_nil
  | @cons entry member _ _ first _ ih =>
      rw [List.map_cons, List.mem_cons, not_or]
      refine ⟨fun same => ?_, ih fun other later => absent other (List.mem_cons_of_mem _ later)⟩
      refine absent member List.mem_cons_self ?_
      rw [same]
      exact first.1

section Insertion

variable {names : List String} {name : String} {front back : List (String × Tree)}

theorem filter_insert (field : name ∈ names) (value : Tree) :
    (front ++ (name, value) :: back).filter (fun entry => entry.1 ∈ names) =
      front.filter (fun entry => entry.1 ∈ names) ++
        (name, value) :: back.filter fun entry => entry.1 ∈ names := by
  rw [List.filter_append, List.filter_cons_of_pos (by simpa using field)]

/-- A known member among others is found under its name, and hides none of them. -/
theorem known_insert {before after : List (WrittenText × Tree)} {key : WrittenText}
    (frontNamed : List.Forall₂ Named front before) (backNamed : List.Forall₂ Named back after)
    (keyed : WrittenText.decode? key = some name) (field : name ∈ names)
    (once : ((front.filter fun entry => entry.1 ∈ names).map Prod.fst ++
      name :: (back.filter fun entry => entry.1 ∈ names).map Prod.fst).Nodup) (value : Tree) :
    ∃ changed, known? names (before ++ (key, value) :: after) = some changed ∧
      Keyed.get? name changed = some value ∧
      ∀ other, other ≠ name → Keyed.get? other changed =
        Keyed.get? other (front.filter (fun entry => entry.1 ∈ names) ++
          back.filter fun entry => entry.1 ∈ names) := by
  refine ⟨_, known_iff.mpr ⟨⟨front ++ (name, value) :: back, ?_, (filter_insert field value).symm⟩,
    ?_⟩, get?_insert_self value once, fun other differs => get?_insert_other differs value _ _⟩
  · exact List.rel_append frontNamed (.cons ⟨keyed, rfl⟩ backNamed)
  · rw [List.map_append, List.map_cons]
    exact once

end Insertion

/-- To set a known member changes what is found under its name, and only that. -/
theorem known_sets {names : List String} {name : String} {value : Tree}
    {members edited : List (WrittenText × Tree)} {present : List (String × Tree)}
    (known : known? names members = some present) (sets : Sets name value members edited)
    (field : name ∈ names) :
    ∃ changed, known? names edited = some changed ∧ Keyed.get? name changed = some value ∧
      ∀ other, other ≠ name → Keyed.get? other changed = Keyed.get? other present := by
  obtain ⟨⟨entries, named, rfl⟩, once⟩ := known_iff.mp known
  cases sets with
  | @replaced before after key old keyed =>
      obtain ⟨front, back, rfl, frontNamed, backNamed⟩ := named_append named
      cases backNamed with
      | @cons entry _ back _ first backNamed =>
          obtain ⟨own, tree⟩ := entry
          obtain rfl : own = name := Option.some.inj (first.1.symm.trans keyed)
          rw [filter_insert field, List.map_append, List.map_cons] at once
          obtain ⟨changed, read, found, others⟩ :=
            known_insert frontNamed backNamed keyed field once value
          refine ⟨changed, read, found, fun other differs => ?_⟩
          rw [others other differs, filter_insert field, get?_insert_other differs]
  | @added before after key keyed absent =>
      obtain ⟨front, back, rfl, frontNamed, backNamed⟩ := named_append named
      have fresh : name ∉ ((front ++ back).filter fun entry => entry.1 ∈ names).map Prod.fst :=
        fun member => key_absent named absent
          (List.map_subset _ (List.filter_subset_self _) member)
      rw [List.filter_append, List.map_append] at once fresh
      rw [List.filter_append]
      exact known_insert frontNamed backNamed keyed field
        (List.nodup_middle.mpr (List.nodup_cons.mpr ⟨fresh, once⟩)) value

/-! ### Readings that differ in one field -/

section Reading

variable {α : Type}

structure AgreeBut (name : String) (a b : Fields) : Prop where
  levels : a.levels = b.levels
  others : ∀ other, other ≠ name → a.find? other = b.find? other

theorem AgreeBut.orElse {name other : String} {a b : Fields} (agree : AgreeBut name a b)
    (differs : other ≠ name) (read : Decoder α) (absent : StateT Supply Option α) :
    a.orElse other read absent = b.orElse other read absent := by
  unfold Fields.orElse
  rw [agree.others other differs, agree.levels]

theorem AgreeBut.orDefault {name other : String} {a b : Fields} (agree : AgreeBut name a b)
    (differs : other ≠ name) (read : Decoder α) (absent : α) :
    a.orDefault other read absent = b.orDefault other read absent :=
  agree.orElse differs read _

theorem orDefault_of_some {f : Fields} {name : String} {tree : Tree}
    (found : f.find? name = some tree) (read : Decoder α) (absent : α) :
    f.orDefault name read absent = read f.levels tree := by
  unfold Fields.orDefault Fields.orElse
  rw [found]

/-- To set a member of an object changes how a reader of entities takes it apart in the field of
that name only. -/
theorem ofTree_sets {names : List String} {levels : Nat} {name : String} {value : Tree}
    {members edited : List (WrittenText × Tree)} {fields : Fields}
    (taken : ofTree? names levels (.object members) = some fields)
    (sets : Sets name value members edited) (field : name ∈ names) :
    ∃ changed, ofTree? names levels (.object edited) = some changed ∧
      changed.find? name = some value ∧ AgreeBut name changed fields := by
  unfold ofTree? at taken ⊢
  simp only at taken ⊢
  split at taken
  · cases taken
  · rename_i deep
    obtain ⟨present, known, rfl⟩ := Option.map_eq_some_iff.mp taken
    obtain ⟨changed, read, found, others⟩ := known_sets known sets field
    rw [if_neg deep, read]
    exact ⟨_, rfl, found, { levels := rfl, others }⟩

theorem find?_of_member {names : List String} {levels : Nat} {name : String} {value : Tree}
    {before after : List (WrittenText × Tree)} {key : WrittenText} {fields : Fields}
    (taken : ofTree? names levels (.object (before ++ (key, value) :: after)) = some fields)
    (named : WrittenText.decode? key = some name) (field : name ∈ names) :
    fields.find? name = some value := by
  obtain ⟨changed, retaken, found, -⟩ := ofTree_sets taken (.replaced value named) field
  rw [Option.some.inj (retaken.symm.trans taken)] at found
  exact found

end Reading

end Fields

end RolloutWatch.Json

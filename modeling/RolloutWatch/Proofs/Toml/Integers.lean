import RolloutWatch.Proofs.Number.Digits
import RolloutWatch.Toml.Document

/-!
The integers of settings documents. A numeral is checked where it is read, and tables take the
values as they are; so every integer of a document that can be read, however deep it stands, has
64 bits. No integer of 64 bits is refused for its size: its plain decimal numeral is read as it.
-/

namespace RolloutWatch.Toml

namespace Node

inductive Bounded : Node → Prop where
  | text (s : String) : Bounded (.text s)
  | integer {i : Int} (fits : inRange i = true) : Bounded (.integer i)
  | real (x : Binary64) : Bounded (.real x)
  | bool (b : Bool) : Bounded (.bool b)
  | moment : Bounded .moment
  | array {items : List Node} (each : ∀ item ∈ items, Bounded item) : Bounded (.array items)
  | braces {origin : Origin} {entries : Entries} (each : ∀ entry ∈ entries, Bounded entry.2) :
      Bounded (.braces origin entries)
  | table {origin : Origin} {entries : Entries} (each : ∀ entry ∈ entries, Bounded entry.2) :
      Bounded (.table origin entries)
  | tables {items : List Entries} (each : ∀ entries ∈ items, ∀ entry ∈ entries, Bounded entry.2) :
      Bounded (.tables items)

def BoundedEntries (entries : Entries) : Prop :=
  ∀ entry ∈ entries, entry.2.Bounded

theorem Bounded.range {i : Int} (bounded : (Node.integer i).Bounded) :
    -9223372036854775808 ≤ i ∧ i ≤ 9223372036854775807 := by
  cases bounded with
  | integer fits => simpa [inRange] using fits

section Entries

variable {entries changed : Entries} {key : String} {node : Node}

theorem boundedEntries_nil : BoundedEntries [] := by
  intro entry among
  cases among

theorem mem_of_find? (found : find? key entries = some node) : (key, node) ∈ entries := by
  obtain ⟨entry, first, rfl⟩ := Option.map_eq_some_iff.mp found
  have named : entry.1 = key := by simpa using List.find?_some first
  rw [← named]
  exact List.mem_of_find?_eq_some first

theorem BoundedEntries.find? (bounded : BoundedEntries entries)
    (found : find? key entries = some node) : node.Bounded :=
  bounded _ (mem_of_find? found)

theorem BoundedEntries.set (bounded : BoundedEntries entries) (value : node.Bounded) :
    BoundedEntries (set key node entries) := by
  induction entries with
  | nil =>
      intro entry among
      rw [List.mem_singleton.mp among]
      exact value
  | cons first rest ih =>
      have restBounded : BoundedEntries rest := fun entry among => bounded entry (.tail _ among)
      intro entry among
      unfold Node.set at among
      split at among
      · rcases List.mem_cons.mp among with rfl | among
        · exact value
        · exact restBounded entry among
      · rcases List.mem_cons.mp among with rfl | among
        · exact bounded _ (.head _)
        · exact ih restBounded entry among

theorem bounded_setLast {items : List Entries} {last : Entries}
    (each : ∀ entries ∈ items, BoundedEntries entries) (lastBounded : BoundedEntries last) :
    ∀ entries ∈ setLast items last, BoundedEntries entries := by
  intro entries among
  rcases List.mem_append.mp among with among | among
  · exact each entries (List.dropLast_subset items among)
  · rw [List.mem_singleton.mp among]
    exact lastBounded

/-- Between braces as elsewhere, a dotted key puts its value into a table and moves no other. -/
theorem insertDotted_bounded {brace : Bool} {path : List String} (value : node.Bounded) :
    ∀ {entries changed : Entries}, BoundedEntries entries →
      insertDotted brace path key node entries = some changed → BoundedEntries changed := by
  have wrapped {origin : Origin} {inner : Entries} (innerBounded : BoundedEntries inner) :
      (if brace then Node.braces origin inner else .table origin inner).Bounded := by
    cases brace with
    | true => exact .braces innerBounded
    | false => exact .table innerBounded
  induction path with
  | nil =>
      intro entries changed bounded inserted
      unfold insertDotted at inserted
      split at inserted
      · cases inserted
        exact bounded.set value
      · cases inserted
  | cons step path ih =>
      intro entries changed bounded inserted
      unfold insertDotted at inserted
      dsimp only at inserted
      split at inserted
      · obtain ⟨inner, innerInserted, rfl⟩ := Option.map_eq_some_iff.mp inserted
        exact bounded.set (wrapped (ih boundedEntries_nil innerInserted))
      · rename_i found
        split at inserted
        · cases inserted
        · obtain ⟨inner, innerInserted, rfl⟩ := Option.map_eq_some_iff.mp inserted
          cases bounded.find? found with
          | table each => exact bounded.set (.table (ih each innerInserted))
      · rename_i found
        split at inserted
        · cases inserted
        · obtain ⟨inner, innerInserted, rfl⟩ := Option.map_eq_some_iff.mp inserted
          cases bounded.find? found with
          | braces each => exact bounded.set (.braces (ih each innerInserted))
      · rename_i found
        split at inserted
        · cases inserted
        · rename_i last isLast
          split at inserted
          · cases inserted
          · obtain ⟨inner, innerInserted, rfl⟩ := Option.map_eq_some_iff.mp inserted
            cases bounded.find? found with
            | tables each =>
                have lastBounded := each last (List.mem_of_getLast? isLast)
                exact bounded.set (.tables (bounded_setLast each (ih lastBounded innerInserted)))
      · cases inserted

theorem atPath_bounded {change : Entries → Option Entries}
    (kept : ∀ {before after : Entries}, BoundedEntries before → change before = some after →
      BoundedEntries after) {path : List String} :
    ∀ {entries changed : Entries}, BoundedEntries entries →
      atPath change path entries = some changed → BoundedEntries changed := by
  induction path with
  | nil => exact kept
  | cons step path ih =>
      intro entries changed bounded reached
      unfold atPath at reached
      split at reached
      · obtain ⟨inner, innerReached, rfl⟩ := Option.map_eq_some_iff.mp reached
        exact bounded.set (.table (ih boundedEntries_nil innerReached))
      · rename_i found
        obtain ⟨inner, innerReached, rfl⟩ := Option.map_eq_some_iff.mp reached
        cases bounded.find? found with
        | table each => exact bounded.set (.table (ih each innerReached))
      · rename_i found
        split at reached
        · cases reached
        · rename_i last isLast
          obtain ⟨inner, innerReached, rfl⟩ := Option.map_eq_some_iff.mp reached
          cases bounded.find? found with
          | tables each =>
              have lastBounded := each last (List.mem_of_getLast? isLast)
              exact bounded.set (.tables (bounded_setLast each (ih lastBounded innerReached)))
      · cases reached

theorem openTable_bounded (bounded : BoundedEntries entries)
    (opened : openTable key entries = some changed) : BoundedEntries changed := by
  unfold openTable at opened
  split at opened
  · cases opened
    exact bounded.set (.table boundedEntries_nil)
  · rename_i found
    split at opened
    · cases opened
      cases bounded.find? found with
      | table each => exact bounded.set (.table each)
    · cases opened
  · cases opened

theorem openItem_bounded (bounded : BoundedEntries entries)
    (opened : openItem key entries = some changed) : BoundedEntries changed := by
  have fresh : ∀ entries ∈ [([] : Entries)], BoundedEntries entries := by
    intro entries among
    rw [List.mem_singleton.mp among]
    exact boundedEntries_nil
  unfold openItem at opened
  split at opened
  · cases opened
    exact bounded.set (.tables fresh)
  · rename_i items found
    cases opened
    cases bounded.find? found with
    | tables each =>
        refine bounded.set (.tables fun entries among => ?_)
        rcases List.mem_append.mp among with among | among
        · exact each entries among
        · exact fresh entries among
  · cases opened

end Entries

end Node

open Node

/-! ### Scalars -/

section Scalars

variable {text rest : List Char} {node : Node}

theorem basedInteger_bounded {base : Nat}
    (found : basedInteger base text = some (node, rest)) : node.Bounded := by
  obtain ⟨⟨digits, after⟩, -, found⟩ := Option.bind_eq_some_iff.mp found
  dsimp only at found
  split at found
  · rename_i fits
    cases found
    exact .integer fits
  · cases found

theorem realNode_bounded {numeral : List Char} (found : realNode numeral = some node) :
    node.Bounded := by
  obtain ⟨x, -, found⟩ := Option.bind_eq_some_iff.mp found
  split at found
  · cases found
  · cases found
    exact .real x

theorem decimal_bounded {sign : List Char} (found : decimal sign text = some (node, rest)) :
    node.Bounded := by
  obtain ⟨⟨whole, after⟩, -, found⟩ := Option.bind_eq_some_iff.mp found
  dsimp only at found
  split at found
  · cases found
  · obtain ⟨⟨tail, after⟩, -, found⟩ := Option.bind_eq_some_iff.mp found
    dsimp only at found
    split at found
    · generalize (if sign = ['-'] then -(Digits.toNat whole : Int) else Digits.toNat whole) = i
        at found
      split at found
      · rename_i fits
        cases found
        exact .integer fits
      · cases found
    · obtain ⟨real, isReal, found⟩ := Option.bind_eq_some_iff.mp found
      cases found
      exact realNode_bounded isReal

theorem moment_bounded (found : moment text = some (node, rest)) : node.Bounded := by
  unfold moment at found
  split at found
  · obtain ⟨time, -, found⟩ := Option.map_eq_some_iff.mp found
    cases found
    exact .moment
  · obtain ⟨⟨date, after⟩, -, found⟩ := Option.bind_eq_some_iff.mp found
    dsimp only at found
    split at found
    · split at found
      · obtain ⟨⟨time, after⟩, -, found⟩ := Option.bind_eq_some_iff.mp found
        obtain ⟨⟨offset, after⟩, -, found⟩ := Option.bind_eq_some_iff.mp found
        cases found
        exact .moment
      · cases found
        exact .moment
    · cases found
      exact .moment

theorem special_bounded (found : special text = some (node, rest)) : node.Bounded := by
  unfold special at found
  split at found
  · cases found
    exact .real _
  · obtain ⟨nan, -, found⟩ := Option.map_eq_some_iff.mp found
    cases found
    exact .real _

theorem signed_bounded {sign : Char} (found : signed sign text = some (node, rest)) :
    node.Bounded := by
  unfold signed at found
  split at found
  · rename_i special
    cases found
    exact special_bounded special
  · exact decimal_bounded found

theorem scalar_bounded (found : scalar text = some (node, rest)) : node.Bounded := by
  unfold scalar at found
  split at found
  · exact moment_bounded found
  · split at found
    · exact signed_bounded found
    · exact signed_bounded found
    · exact basedInteger_bounded found
    · exact basedInteger_bounded found
    · exact basedInteger_bounded found
    · obtain ⟨word, -, found⟩ := Option.map_eq_some_iff.mp found
      cases found
      exact .bool true
    · obtain ⟨word, -, found⟩ := Option.map_eq_some_iff.mp found
      cases found
      exact .bool false
    · exact special_bounded found
    · exact special_bounded found
    · exact decimal_bounded found

end Scalars

/-! ### Values -/

/-- What is read with so much fuel has integers of 64 bits, if what was read before it has. -/
structure BoundedReading (fuel : Nat) : Prop where
  value : ∀ {depth : Nat} {text rest : List Char} {node : Node},
    Toml.value fuel depth text = some (node, rest) → node.Bounded
  arrayItems : ∀ {depth : Nat} {before : List Node} {text rest : List Char} {node : Node},
    (∀ item ∈ before, item.Bounded) →
      Toml.arrayItems fuel depth before text = some (node, rest) → node.Bounded
  braceEntries : ∀ {depth : Nat} {entries : Entries} {text rest : List Char} {node : Node},
    BoundedEntries entries →
      Toml.braceEntries fuel depth entries text = some (node, rest) → node.Bounded

theorem boundedReading_zero : BoundedReading 0 where
  value found := by cases found
  arrayItems _ found := by cases found
  braceEntries _ found := by cases found

section Step

variable {fuel depth : Nat} {text rest : List Char} {node : Node}

theorem BoundedReading.value_step (reading : BoundedReading fuel)
    (found : Toml.value (fuel + 1) depth text = some (node, rest)) : node.Bounded := by
  unfold Toml.value at found
  split at found
  · obtain ⟨⟨s, after⟩, -, found⟩ := Option.map_eq_some_iff.mp found
    cases found
    exact .text s
  · obtain ⟨⟨s, after⟩, -, found⟩ := Option.map_eq_some_iff.mp found
    cases found
    exact .text s
  · split at found
    · cases found
    · exact reading.arrayItems (fun _ among => absurd among List.not_mem_nil) found
  · split at found
    · split at found
      · cases found
      · split at found
        · cases found
        · split at found
          · cases found
            exact .braces boundedEntries_nil
          · exact reading.braceEntries boundedEntries_nil found
    · exact scalar_bounded found
  · cases found

theorem BoundedReading.arrayItems_step (reading : BoundedReading fuel) {before : List Node}
    (bounded : ∀ item ∈ before, item.Bounded)
    (found : Toml.arrayItems (fuel + 1) depth before text = some (node, rest)) :
    node.Bounded := by
  unfold Toml.arrayItems at found
  dsimp only at found
  split at found
  · cases found
    exact .array fun item among => bounded item (List.mem_reverse.mp among)
  · obtain ⟨⟨item, after⟩, isValue, found⟩ := Option.bind_eq_some_iff.mp found
    have more : ∀ item' ∈ item :: before, item'.Bounded := by
      intro item' among
      rcases List.mem_cons.mp among with rfl | among
      · exact reading.value isValue
      · exact bounded item' among
    dsimp only at found
    split at found
    · exact reading.arrayItems more found
    · cases found
      exact .array fun item' among => more item' (List.mem_reverse.mp among)
    · cases found

theorem BoundedReading.braceEntries_step (reading : BoundedReading fuel) {entries : Entries}
    (bounded : BoundedEntries entries)
    (found : Toml.braceEntries (fuel + 1) depth entries text = some (node, rest)) :
    node.Bounded := by
  unfold Toml.braceEntries at found
  obtain ⟨⟨steps, afterKey⟩, -, found⟩ := Option.bind_eq_some_iff.mp found
  obtain ⟨⟨_, afterMark⟩, -, found⟩ := Option.bind_eq_some_iff.mp found
  obtain ⟨⟨item, afterItem⟩, isValue, found⟩ := Option.bind_eq_some_iff.mp found
  obtain ⟨changed, inserted, found⟩ := Option.bind_eq_some_iff.mp found
  have changedBounded := insertDotted_bounded (reading.value isValue) bounded inserted
  split at found
  · exact reading.braceEntries changedBounded found
  · split at found
    · cases found
      exact .braces changedBounded
    · cases found
  · cases found

theorem BoundedReading.succ (reading : BoundedReading fuel) : BoundedReading (fuel + 1) where
  value := reading.value_step
  arrayItems := reading.arrayItems_step
  braceEntries := reading.braceEntries_step

end Step

theorem boundedReading (fuel : Nat) : BoundedReading fuel := by
  induction fuel with
  | zero => exact boundedReading_zero
  | succ fuel reading => exact reading.succ

/-! ### Lines -/

theorem entry_bounded {text rest : List Char} {steps : List String} {node : Node}
    (found : entry text = some ((steps, node), rest)) : node.Bounded := by
  obtain ⟨⟨key, afterKey⟩, -, found⟩ := Option.bind_eq_some_iff.mp found
  obtain ⟨⟨_, afterMark⟩, -, found⟩ := Option.bind_eq_some_iff.mp found
  obtain ⟨⟨item, afterItem⟩, isValue, found⟩ := Option.bind_eq_some_iff.mp found
  obtain ⟨afterLine, -, found⟩ := Option.bind_eq_some_iff.mp found
  cases found
  exact (boundedReading _).value isValue

theorem line_bounded {p next : Progress} {text rest : List Char} (bounded : BoundedEntries p.root)
    (found : line p text = some (next, rest)) : BoundedEntries next.root := by
  unfold line at found
  dsimp only at found
  split at found
  · cases found
    exact bounded
  · obtain ⟨after, -, found⟩ := Option.map_eq_some_iff.mp found
    cases found
    exact bounded
  · obtain ⟨⟨⟨double, steps⟩, after⟩, -, found⟩ := Option.bind_eq_some_iff.mp found
    obtain ⟨root, reached, found⟩ := Option.bind_eq_some_iff.mp found
    cases found
    refine atPath_bounded (fun before changed => ?_) bounded reached
    split at changed
    · exact openItem_bounded before changed
    · exact openTable_bounded before changed
  · split at found
    · cases found
      exact bounded
    · obtain ⟨⟨⟨steps, item⟩, after⟩, isEntry, found⟩ := Option.bind_eq_some_iff.mp found
      obtain ⟨root, reached, found⟩ := Option.bind_eq_some_iff.mp found
      cases found
      have itemBounded := entry_bounded isEntry
      exact atPath_bounded (fun before changed => insertDotted_bounded itemBounded before changed)
        bounded reached

theorem lines_bounded {fuel : Nat} {p : Progress} {text : List Char} {entries : Entries}
    (bounded : BoundedEntries p.root) (read : lines fuel p text = .ok entries) :
    BoundedEntries entries := by
  induction fuel generalizing p text with
  | zero =>
      cases read
      exact bounded
  | succ fuel ih =>
      unfold lines at read
      split at read
      · cases read
        exact bounded
      · split at read
        · rename_i isLine
          exact ih (line_bounded bounded isLine) read
        · cases read

theorem document_bounded {text : List Char} {entries : Entries}
    (read : document text = .ok entries) : BoundedEntries entries := by
  unfold document at read
  dsimp only at read
  split at read
  · rename_i isRead
    cases read
    exact lines_bounded boundedEntries_nil isRead
  · cases read

/-! ### Plain numerals -/

theorem line_of_entry {p : Progress} {c : Char} {text rest : List Char} {steps : List String}
    {node : Node} {root : Entries} (visible : isSpace c = false) (ordinary : c ∉ ['#', '['])
    (ongoing : newline? (c :: text) = none)
    (isEntry : entry (c :: text) = some ((steps, node), rest))
    (changed : atPath (insertDotted false (splitKey steps).1 (splitKey steps).2 node) p.here
      p.root = some root) :
    line p (c :: text) = some ({ p with root }, rest) := by
  have whole : skipSpace (c :: text) = c :: text :=
    List.dropWhile_cons_of_neg (ne_true_of_eq_false visible)
  unfold line
  simp only [whole]
  split
  · rename_i same
    cases same
  · rename_i same
    cases same
    exact absurd (.head _) ordinary
  · rename_i same
    cases same
    exact absurd (.tail _ (.head _)) ordinary
  · rw [ongoing]
    simp only [isEntry, Option.bind_eq_bind, Option.bind_some, changed]
    rfl

theorem lines_cons {fuel : Nat} {p next : Progress} {c : Char} {text rest : List Char}
    (isLine : line p (c :: text) = some (next, rest)) :
    lines (fuel + 1) p (c :: text) = lines fuel next rest := by
  simp only [lines, isLine]

theorem document_of_lines {c : Char} {text : List Char} {entries : Entries}
    (unmarked : c.toNat ≠ 0xFEFF)
    (read : lines (text.length + 2) { root := [], here := [] } (c :: text) = .ok entries) :
    document (c :: text) = .ok entries := by
  unfold document
  simp only [if_neg unmarked, List.length_cons, read]

theorem grouped_append {isDigit : Char → Bool} {digits rest : List Char}
    (all : ∀ c ∈ digits, isDigit c = true) (mark : isDigit '_' = false)
    (stops : grouped isDigit true rest = some ([], rest)) {afterDigit : Bool}
    (some_digit : digits ≠ [] ∨ afterDigit = true) :
    grouped isDigit afterDigit (digits ++ rest) = some (digits, rest) := by
  induction digits generalizing afterDigit with
  | nil =>
      rw [some_digit.resolve_left (· rfl)]
      exact stops
  | cons c digits ih =>
      have digit := all c (.head _)
      have other : c ≠ '_' := by
        rintro rfl
        rw [mark] at digit
        cases digit
      have more := ih (fun c among => all c (.tail _ among)) (.inr rfl)
      rw [List.cons_append]
      unfold grouped
      split
      · rename_i same
        cases same
        exact absurd rfl other
      · rename_i same
        cases same
        rw [if_pos digit, more, Option.map_some]
      · rename_i same
        cases same

section Plain

variable {digits rest : List Char}

theorem decimal_digits (all : ∀ c ∈ digits, Digits.isDigit c = true) (nonempty : digits ≠ [])
    (plain : digits.head? ≠ some '0') (fits : inRange (Digits.toNat digits)) :
    decimal [] (digits ++ '\n' :: rest) =
      some (.integer (Digits.toNat digits), '\n' :: rest) := by
  have whole : grouped Digits.isDigit false (digits ++ '\n' :: rest) =
      some (digits, '\n' :: rest) :=
    grouped_append all rfl rfl (.inl nonempty)
  have noZero : ¬ (digits.head? = some '0' ∧ digits ≠ ['0']) :=
    fun ⟨zero, _⟩ => plain zero
  have noTail : realTail ('\n' :: rest) = some ([], '\n' :: rest) := rfl
  have unsigned : ([] : List Char) ≠ ['-'] := (List.cons_ne_nil _ _).symm
  unfold decimal
  simp only [whole, noTail, Option.bind_eq_bind, Option.bind_some, if_neg noZero, if_true,
    if_neg unsigned, if_pos fits]
  rfl

theorem beginsTime_mark {text : List Char} (begins : beginsTime text = true) :
    (text.dropWhile Digits.isDigit).head? = some ':' := by
  unfold beginsTime at begins
  split at begins
  · rw [Bool.and_eq_true] at begins
    rw [List.dropWhile_cons_of_pos begins.1, List.dropWhile_cons_of_pos begins.2]
    rfl
  · cases begins

theorem beginsDate_mark {text : List Char} (begins : beginsDate text = true) :
    (text.dropWhile Digits.isDigit).head? = some '-' := by
  unfold beginsDate at begins
  split at begins
  · simp only [List.all_cons, List.all_nil, Bool.and_true, Bool.and_eq_true] at begins
    obtain ⟨first, second, third, fourth⟩ := begins
    rw [List.dropWhile_cons_of_pos first, List.dropWhile_cons_of_pos second,
      List.dropWhile_cons_of_pos third, List.dropWhile_cons_of_pos fourth]
    rfl
  · cases begins

theorem scalar_digits (all : ∀ c ∈ digits, Digits.isDigit c = true) (nonempty : digits ≠ [])
    (plain : digits.head? ≠ some '0') (fits : inRange (Digits.toNat digits)) :
    scalar (digits ++ '\n' :: rest) =
      some (.integer (Digits.toNat digits), '\n' :: rest) := by
  have follows : ((digits ++ '\n' :: rest).dropWhile Digits.isDigit).head? = some '\n' := by
    rw [(Digits.takeWhile_isDigit all _ fun c first => by cases first; rfl).2]
    rfl
  have noMoment : ¬ (beginsTime (digits ++ '\n' :: rest) || beginsDate (digits ++ '\n' :: rest)) =
      true := by
    intro begins
    rcases Bool.or_eq_true_iff.mp begins with begins | begins
    · exact absurd (follows.symm.trans (beginsTime_mark begins)) (by decide)
    · exact absurd (follows.symm.trans (beginsDate_mark begins)) (by decide)
  have read : decimal [] (digits ++ '\n' :: rest) = _ := decimal_digits all nonempty plain fits
  obtain ⟨c, more, rfl⟩ := List.exists_cons_of_ne_nil nonempty
  have digit := all c (.head _)
  have notZero : c ≠ '0' := fun zero => plain (by rw [zero]; rfl)
  -- the mark of every other kind of scalar is not a digit from one to nine
  have other {mark : Char} (isMark : Digits.isDigit mark = false ∨ mark = '0') : c ≠ mark := by
    rintro rfl
    rcases isMark with isMark | zero
    · rw [isMark] at digit
      cases digit
    · exact notZero zero
  unfold scalar
  rw [if_neg noMoment]
  split
  case h_10 => exact read
  all_goals
    rename_i same
    exact absurd (List.cons.inj same).1 (other (by decide))

theorem value_digits (all : ∀ c ∈ digits, Digits.isDigit c = true) (nonempty : digits ≠ [])
    (plain : digits.head? ≠ some '0') (fits : inRange (Digits.toNat digits)) (fuel depth : Nat) :
    value (fuel + 1) depth (digits ++ '\n' :: rest) =
      some (.integer (Digits.toNat digits), '\n' :: rest) := by
  have read : scalar (digits ++ '\n' :: rest) = _ := scalar_digits all nonempty plain fits
  obtain ⟨c, more, rfl⟩ := List.exists_cons_of_ne_nil nonempty
  have digit := all c (.head _)
  have bounds := (Digits.isDigit_iff c).mp digit
  have other {mark : Char} (isMark : Digits.isDigit mark = false) : c ≠ mark := by
    rintro rfl
    rw [isMark] at digit
    cases digit
  unfold value
  split
  · rename_i same; exact absurd (List.cons.inj same).1 (other rfl)
  · rename_i same; exact absurd (List.cons.inj same).1 (other rfl)
  · rename_i same; exact absurd (List.cons.inj same).1 (other rfl)
  · rename_i first after same
    cases same
    rw [if_neg (by omega)]
    exact read
  · rename_i same
    cases same

/-- A positive number of 63 bits is read from its decimal digits at the end of a line. -/
theorem value_ofNat {n : Nat} (positive : 1 ≤ n) (fits : n ≤ 9223372036854775807)
    (fuel depth : Nat) (rest : List Char) :
    value (fuel + 1) depth (Digits.ofNat n ++ '\n' :: rest) =
      some (.integer n, '\n' :: rest) := by
  have plain : (Digits.ofNat n).head? ≠ some '0' := by
    intro zero
    have none := Digits.toNat_ofNat n
    rw [Digits.ofNat_leading_zero n zero] at none
    exact absurd (none ▸ positive) (by decide)
  have range : inRange (Digits.toNat (Digits.ofNat n)) = true := by
    rw [Digits.toNat_ofNat]
    simp only [inRange, Bool.and_eq_true, decide_eq_true_eq]
    omega
  have read : value (fuel + 1) depth (Digits.ofNat n ++ '\n' :: rest) = _ :=
    value_digits (Digits.ofNat_isDigit n) (Digits.ofNat_ne_nil n) plain range fuel depth
  rwa [Digits.toNat_ofNat] at read

end Plain

end RolloutWatch.Toml

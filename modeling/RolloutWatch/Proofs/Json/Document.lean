import RolloutWatch.Proofs.Json.WrittenText

/-!
Printed values are read back. The printer's text of a value is scanned into the tokens of the
value, and the tokens are built into its tree. A numeral ends where the next byte cannot go
on with a word, which is the case behind every value inside a document. That the numerals of
a value can be read at all is a condition on its numbers.
-/

namespace RolloutWatch.Json

/-! ### Words -/

def isWordChar (c : Char) : Bool :=
  c.toNat < 0x80 && Token.isWordByte (UInt8.ofNat c.toNat)

namespace Token

/-- What follows cannot go on with a word. -/
def EndsWord (rest : List UInt8) : Prop :=
  ∀ b, rest.head? = some b → isWordByte b = false

theorem endsWord_nil : EndsWord [] :=
  fun _ absent => by cases absent

theorem endsWord_cons {b : UInt8} (mark : isWordByte b = false) (rest : List UInt8) :
    EndsWord (b :: rest) := by
  intro c first
  rw [← Option.some.inj first]
  exact mark

theorem scan_word_end {taken : List Char} {token : Token}
    (reads : ofWord? taken.reverse = some token) {rest : List UInt8} (ends : EndsWord rest) :
    scan (.word taken) rest = (scan .between rest).map (token :: ·) := by
  cases rest with
  | nil => simp only [scan, finish?, reads, Option.map_some]
  | cons b more =>
      have mark := ends b rfl
      cases begun : start? b with
      | none =>
          have refused : step? (.word taken) b = none := by
            simp only [step?, mark, Bool.false_eq_true, if_false, reads, begun]
            rfl
          have alone : step? .between b = none := begun
          rw [scan, refused, scan, alone]
          rfl
      | some result =>
          obtain ⟨tokens, next⟩ := result
          have stepped : step? (.word taken) b = some (token :: tokens, next) := by
            simp only [step?, mark, Bool.false_eq_true, if_false, reads, begun]
            rfl
          have alone : step? .between b = some (tokens, next) := begun
          rw [scan_step stepped, scan_step alone, Option.map_map]
          rfl

theorem scan_word_more {word : List Char} (all : ∀ c ∈ word, isWordChar c = true)
    (taken : List Char) (rest : List UInt8) :
    scan (.word taken) (Utf8.encode word ++ rest) = scan (.word (word.reverse ++ taken)) rest := by
  induction word generalizing taken with
  | nil => rfl
  | cons c more ih =>
      obtain ⟨ascii, wordByte⟩ := (Bool.and_eq_true _ _).mp (all c List.mem_cons_self)
      obtain ⟨bytes, back⟩ := encodeChar_ascii (of_decide_eq_true ascii)
      have stepped : step? (.word taken) (UInt8.ofNat c.toNat) = some ([], .word (c :: taken)) := by
        simp only [step?, wordByte, if_true, back]
      have others := ih (fun d member => all d (List.mem_cons_of_mem _ member)) (c :: taken)
      unfold Utf8.encode at others ⊢
      rw [List.flatMap_cons, bytes, List.append_assoc, List.singleton_append,
        scan_silent stepped, others, List.reverse_cons, List.append_assoc, List.singleton_append]

private theorem start_word_small (n : Fin 128) (wordByte : isWordByte (UInt8.ofNat n.val) = true) :
    isBlank (UInt8.ofNat n.val) = false ∧ (UInt8.ofNat n.val == 0x22) = false := by
  revert n
  decide

/-- A word that can be read is scanned into its token, if something follows that ends it. -/
theorem scan_word {word : List Char} {token : Token} (nonempty : word ≠ [])
    (all : ∀ c ∈ word, isWordChar c = true) (reads : ofWord? word = some token)
    {rest : List UInt8} (ends : EndsWord rest) :
    scan .between (Utf8.encode word ++ rest) = (scan .between rest).map (token :: ·) := by
  cases word with
  | nil => exact absurd rfl nonempty
  | cons c more =>
      obtain ⟨ascii, wordByte⟩ := (Bool.and_eq_true _ _).mp (all c List.mem_cons_self)
      obtain ⟨bytes, back⟩ := encodeChar_ascii (of_decide_eq_true ascii)
      obtain ⟨noBlank, noQuote⟩ :=
        start_word_small ⟨c.toNat, of_decide_eq_true ascii⟩ wordByte
      have stepped : step? .between (UInt8.ofNat c.toNat) = some ([], .word [c]) := by
        simp only [step?, start?, noBlank, noQuote, wordByte, if_true, Bool.false_eq_true, if_false,
          back]
      have others := scan_word_more (fun d member => all d (List.mem_cons_of_mem _ member)) [c] rest
      unfold Utf8.encode at others ⊢
      rw [List.flatMap_cons, bytes, List.append_assoc, List.singleton_append,
        scan_silent stepped, others]
      refine scan_word_end ?_ ends
      rw [List.reverse_append, List.reverse_reverse]
      exact reads

theorem scan_mark {b : UInt8} {token : Token} (begun : start? b = some ([token], .between))
    (rest : List UInt8) :
    scan .between (b :: rest) = (scan .between rest).map (token :: ·) := by
  have stepped : step? .between b = some ([token], .between) := begun
  exact scan_step stepped rest

end Token

/-! ### The tree of a value -/

namespace Number

def tree (n : Number) : Tree :=
  match Numeral.ofChars? n.chars with
  | some numeral => .number numeral
  | none => .null

def token (n : Number) : Token :=
  match Numeral.ofChars? n.chars with
  | some numeral => .number numeral
  | none => .null

/-- The text of the number is a numeral, or says that there is none. -/
structure Legible (n : Number) : Prop where
  nonempty : n.chars ≠ []
  word : ∀ c ∈ n.chars, isWordChar c = true
  reads : Token.ofWord? n.chars = some n.token

end Number

namespace Value

mutual

def tree : Value → Tree
  | .null => .null
  | .bool b => .bool b
  | .number n => n.tree
  | .text s => .text (written s)
  | .array items => .array (trees items)
  | .object members => .object (memberTrees members)

def trees : List Value → List Tree
  | [] => []
  | value :: rest => tree value :: trees rest

def memberTrees : List (String × Value) → List (WrittenText × Tree)
  | [] => []
  | (key, value) :: rest => (written key, tree value) :: memberTrees rest

end

mutual

def tokens : Value → List Token
  | .null => [.null]
  | .bool b => [.bool b]
  | .number n => [n.token]
  | .text s => [.text (written s)]
  | .array [] => [.openArray, .closeArray]
  | .array (first :: rest) => .openArray :: (tokens first ++ itemTokens rest)
  | .object [] => [.openObject, .closeObject]
  | .object ((key, first) :: rest) =>
      .openObject :: .text (written key) :: .colon :: (tokens first ++ memberTokens rest)

def itemTokens : List Value → List Token
  | [] => [.closeArray]
  | value :: rest => .comma :: (tokens value ++ itemTokens rest)

def memberTokens : List (String × Value) → List Token
  | [] => [.closeObject]
  | (key, value) :: rest =>
      .comma :: .text (written key) :: .colon :: (tokens value ++ memberTokens rest)

end

mutual

/-- All numbers in the value are legible. -/
def Legible : Value → Prop
  | .number n => n.Legible
  | .array items => LegibleItems items
  | .object members => LegibleMembers members
  | _ => True

def LegibleItems : List Value → Prop
  | [] => True
  | value :: rest => Legible value ∧ LegibleItems rest

def LegibleMembers : List (String × Value) → Prop
  | [] => True
  | (_, value) :: rest => Legible value ∧ LegibleMembers rest

end

/-! ### Scanning -/

theorem encode_append (a b : List Char) :
    Utf8.encode (a ++ b) = Utf8.encode a ++ Utf8.encode b :=
  List.flatMap_append

theorem compactItems_endsWord (values : List Value) (rest : List UInt8) :
    Token.EndsWord (Utf8.encode (compactItems values) ++ rest) := by
  cases values with
  | nil => exact Token.endsWord_cons (by decide) rest
  | cons value more => exact Token.endsWord_cons (by decide) _

theorem compactMembers_endsWord (members : List (String × Value)) (rest : List UInt8) :
    Token.EndsWord (Utf8.encode (compactMembers members) ++ rest) := by
  cases members with
  | nil => exact Token.endsWord_cons (by decide) rest
  | cons member more => exact Token.endsWord_cons (by decide) _

mutual

theorem scan_compact : (v : Value) → v.Legible → (rest : List UInt8) → Token.EndsWord rest →
    Token.scan .between (Utf8.encode v.compact ++ rest) =
      (Token.scan .between rest).map (v.tokens ++ ·)
  | .null, _, _, ends => Token.scan_word (by decide) (List.all_eq_true.mp rfl) rfl ends
  | .bool true, _, _, ends => Token.scan_word (by decide) (List.all_eq_true.mp rfl) rfl ends
  | .bool false, _, _, ends => Token.scan_word (by decide) (List.all_eq_true.mp rfl) rfl ends
  | .number n, legible, _, ends => by
      have number : n.Legible := legible
      exact Token.scan_word number.nonempty number.word number.reads ends
  | .text s, _, rest, _ => Token.scan_quoted s rest
  | .array [], _, rest, _ => by
      have text : Utf8.encode (compact (.array [])) = [0x5B, 0x5D] := rfl
      rw [text, List.cons_append, List.singleton_append, Token.scan_mark rfl,
        Token.scan_mark rfl, Option.map_map]
      rfl
  | .array (first :: more), legible, rest, ends => by
      obtain ⟨firstLegible, others⟩ : first.Legible ∧ LegibleItems more := legible
      have text : Utf8.encode (compact (.array (first :: more))) =
          0x5B :: (Utf8.encode first.compact ++ Utf8.encode (compactItems more)) :=
        congrArg (0x5B :: ·) (encode_append _ _)
      rw [text, List.cons_append, Token.scan_mark rfl, List.append_assoc,
        scan_compact first firstLegible _ (compactItems_endsWord more rest),
        scan_compactItems more others rest, Option.map_map, Option.map_map]
      congr 1
      funext tokens
      simp only [Function.comp_apply, Value.tokens, List.cons_append, List.append_assoc]
  | .object [], _, rest, _ => by
      have text : Utf8.encode (compact (.object [])) = [0x7B, 0x7D] := rfl
      rw [text, List.cons_append, List.singleton_append, Token.scan_mark rfl,
        Token.scan_mark rfl, Option.map_map]
      rfl
  | .object ((key, first) :: more), legible, rest, ends => by
      obtain ⟨firstLegible, others⟩ : first.Legible ∧ LegibleMembers more := legible
      have text : Utf8.encode (compact (.object ((key, first) :: more))) =
          0x7B :: (Utf8.encode (quoted key) ++
            0x3A :: (Utf8.encode first.compact ++ Utf8.encode (compactMembers more))) := by
        refine congrArg (0x7B :: ·) ((encode_append _ _).trans ?_)
        exact congrArg (Utf8.encode (quoted key) ++ 0x3A :: ·) (encode_append _ _)
      rw [text, List.cons_append, Token.scan_mark rfl, List.append_assoc, Token.scan_quoted,
        List.cons_append, Token.scan_mark rfl, List.append_assoc,
        scan_compact first firstLegible _ (compactMembers_endsWord more rest),
        scan_compactMembers more others rest, Option.map_map, Option.map_map, Option.map_map,
        Option.map_map]
      congr 1
      funext tokens
      simp only [Function.comp_apply, Value.tokens, List.cons_append, List.append_assoc]

theorem scan_compactItems : (values : List Value) → LegibleItems values →
    (rest : List UInt8) →
    Token.scan .between (Utf8.encode (compactItems values) ++ rest) =
      (Token.scan .between rest).map (itemTokens values ++ ·)
  | [], _, rest => Token.scan_mark rfl rest
  | value :: more, legible, rest => by
      have text : Utf8.encode (compactItems (value :: more)) =
          0x2C :: (Utf8.encode value.compact ++ Utf8.encode (compactItems more)) :=
        congrArg (0x2C :: ·) (encode_append _ _)
      rw [text, List.cons_append, Token.scan_mark rfl, List.append_assoc,
        scan_compact value legible.1 _ (compactItems_endsWord more rest),
        scan_compactItems more legible.2 rest, Option.map_map, Option.map_map]
      congr 1
      funext tokens
      simp only [Function.comp_apply, itemTokens, List.cons_append, List.append_assoc]

theorem scan_compactMembers : (members : List (String × Value)) → LegibleMembers members →
    (rest : List UInt8) →
    Token.scan .between (Utf8.encode (compactMembers members) ++ rest) =
      (Token.scan .between rest).map (memberTokens members ++ ·)
  | [], _, rest => Token.scan_mark rfl rest
  | (key, value) :: more, legible, rest => by
      have text : Utf8.encode (compactMembers ((key, value) :: more)) =
          0x2C :: (Utf8.encode (quoted key) ++
            0x3A :: (Utf8.encode value.compact ++ Utf8.encode (compactMembers more))) := by
        refine congrArg (0x2C :: ·) ((encode_append _ _).trans ?_)
        exact congrArg (Utf8.encode (quoted key) ++ 0x3A :: ·) (encode_append _ _)
      rw [text, List.cons_append, Token.scan_mark rfl, List.append_assoc, Token.scan_quoted,
        List.cons_append, Token.scan_mark rfl, List.append_assoc,
        scan_compact value legible.1 _ (compactMembers_endsWord more rest),
        scan_compactMembers more legible.2 rest, Option.map_map, Option.map_map, Option.map_map,
        Option.map_map]
      congr 1
      funext tokens
      simp only [Function.comp_apply, memberTokens, List.cons_append, List.append_assoc]

end

/-! ### Building -/

theorem run_step {state next : Tree.State} {token : Token}
    (stepped : Tree.step? state token = some next) (rest : List Token) :
    Tree.run? state (token :: rest) = Tree.run? next rest := by
  have run : Tree.run? state (token :: rest) =
      (Tree.step? state token).bind fun next => Tree.run? next rest := by
    cases state <;> rfl
  rw [run, stepped, Option.bind_some]

/-- No value begins with the end of an array, so the first item is read as any other value. -/
theorem run_firstItem (v : Value) (stack : List Tree.Frame) (rest : List Token) :
    Tree.run? (.firstItem stack) (v.tokens ++ rest) =
      Tree.run? (.value (.item [] :: stack)) (v.tokens ++ rest) := by
  have same (token : Token) (noEnd : token ≠ .closeArray) (more : List Token) :
      Tree.run? (.firstItem stack) (token :: more) =
        Tree.run? (.value (.item [] :: stack)) (token :: more) := by
    cases token with
    | closeArray => exact absurd rfl noEnd
    | _ => rfl
  match v with
  | .null => exact same _ (by simp) _
  | .bool b => exact same _ (by simp) _
  | .number n =>
      refine same _ ?_ _
      unfold Number.token
      split <;> simp
  | .text s => exact same _ (by simp) _
  | .array [] => exact same _ (by simp) _
  | .array (first :: more) => exact same _ (by simp) _
  | .object [] => exact same _ (by simp) _
  | .object (member :: more) => exact same _ (by simp) _

mutual

theorem run_value : (v : Value) → (stack : List Tree.Frame) → (rest : List Token) →
    Tree.run? (.value stack) (v.tokens ++ rest) = Tree.run? (Tree.give v.tree stack) rest
  | .null, _, rest => run_step rfl rest
  | .bool _, _, rest => run_step rfl rest
  | .number n, stack, rest => by
      have begun : Tree.step? (.value stack) n.token = some (Tree.give n.tree stack) := by
        change Tree.beginValue? n.token stack = _
        unfold Number.token Number.tree
        cases Numeral.ofChars? n.chars <;> rfl
      exact run_step begun rest
  | .text _, _, rest => run_step rfl rest
  | .array [], stack, rest => by
      have opened : Tree.step? (.value stack) .openArray = some (.firstItem stack) := rfl
      exact (run_step opened _).trans (run_step rfl rest)
  | .array (first :: more), stack, rest => by
      have opened : Tree.step? (.value stack) .openArray = some (.firstItem stack) := rfl
      rw [Value.tokens, List.cons_append, run_step opened, List.append_assoc, run_firstItem,
        run_value first (.item [] :: stack), Tree.give, run_items more [first.tree] stack rest]
      rfl
  | .object [], stack, rest => by
      have opened : Tree.step? (.value stack) .openObject = some (.firstKey stack) := rfl
      exact (run_step opened _).trans (run_step rfl rest)
  | .object ((key, first) :: more), stack, rest => by
      have opened : Tree.step? (.value stack) .openObject = some (.firstKey stack) := rfl
      have keyed : Tree.step? (.firstKey stack) (.text (written key)) =
          some (.colon [] (written key) stack) := rfl
      have parted : Tree.step? (.colon [] (written key) stack) .colon =
          some (.value (.member [] (written key) :: stack)) := rfl
      rw [Value.tokens, List.cons_append, run_step opened, List.cons_append, run_step keyed,
        List.cons_append, run_step parted, List.append_assoc,
        run_value first (.member [] (written key) :: stack), Tree.give,
        run_members more [(written key, first.tree)] stack rest]
      rfl

theorem run_items : (values : List Value) → (before : List Tree) →
    (stack : List Tree.Frame) → (rest : List Token) →
    Tree.run? (.nextItem before stack) (itemTokens values ++ rest) =
      Tree.run? (Tree.give (.array (before.reverse ++ trees values)) stack) rest
  | [], before, stack, rest => by
      rw [trees, List.append_nil]
      exact run_step rfl rest
  | value :: more, before, stack, rest => by
      have comma : Tree.step? (.nextItem before stack) .comma =
          some (.value (.item before :: stack)) := rfl
      rw [itemTokens, List.cons_append, run_step comma, List.append_assoc,
        run_value value (.item before :: stack), Tree.give,
        run_items more (value.tree :: before) stack rest, trees, List.reverse_cons,
        List.append_assoc, List.singleton_append]

theorem run_members : (members : List (String × Value)) →
    (before : List (WrittenText × Tree)) → (stack : List Tree.Frame) → (rest : List Token) →
    Tree.run? (.nextMember before stack) (memberTokens members ++ rest) =
      Tree.run? (Tree.give (.object (before.reverse ++ memberTrees members)) stack) rest
  | [], before, stack, rest => by
      rw [memberTrees, List.append_nil]
      exact run_step rfl rest
  | (key, value) :: more, before, stack, rest => by
      have comma : Tree.step? (.nextMember before stack) .comma = some (.key before stack) := rfl
      have keyed : Tree.step? (.key before stack) (.text (written key)) =
          some (.colon before (written key) stack) := rfl
      have parted : Tree.step? (.colon before (written key) stack) .colon =
          some (.value (.member before (written key) :: stack)) := rfl
      rw [memberTokens, List.cons_append, run_step comma, List.cons_append, run_step keyed,
        List.cons_append, run_step parted, List.append_assoc,
        run_value value (.member before (written key) :: stack), Tree.give,
        run_members more ((written key, value.tree) :: before) stack rest, memberTrees,
        List.reverse_cons, List.append_assoc, List.singleton_append]

end

/-- The printed text of a value whose numbers are legible is the document of the value. -/
theorem ofBytes_bytes (v : Value) (legible : v.Legible) : Tree.ofBytes? v.bytes = some v.tree := by
  have scanned := scan_compact v legible [] Token.endsWord_nil
  rw [List.append_nil] at scanned
  have tokens : Token.ofBytes? v.bytes = some v.tokens := by
    refine scanned.trans ?_
    rw [Token.scan, Token.finish?, Option.map_some, List.append_nil]
  have built := run_value v [] []
  rw [List.append_nil] at built
  unfold Tree.ofBytes?
  rw [tokens]
  exact built

end Value

end RolloutWatch.Json

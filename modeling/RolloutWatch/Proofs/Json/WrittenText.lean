import RolloutWatch.Json.Printer
import RolloutWatch.Proofs.Text.Identifier
import RolloutWatch.Proofs.Text.Utf8

/-!
Texts between quotes. What the printer writes for a text is scanned into pieces, one for each
byte and one for each escaped control, and the pieces are decoded to the text.
-/

namespace RolloutWatch.Json

/-! ### The pieces of a printed text -/

/-- Controls without an escape of their own are written as code units, all else as bytes. -/
def writtenChar (c : Char) : WrittenText :=
  if c.toNat < 0x20 ∧ c.toNat ∉ [0x08, 0x09, 0x0A, 0x0C, 0x0D] then [.codeUnit c.toNat]
  else (Utf8.encodeChar c).map .byte

def written (s : String) : WrittenText :=
  s.toList.flatMap writtenChar

namespace WrittenText

theorem bytes_map_byte (bytes : List UInt8) (rest : WrittenText) :
    bytes? (bytes.map .byte ++ rest) = (bytes? rest).map (bytes ++ ·) := by
  induction bytes with
  | nil => simp
  | cons b more ih =>
      rw [List.map_cons, List.cons_append, bytes?, ih, Option.map_map]
      rfl

theorem bytes_codeUnit {n : Nat} (below : n < 0x20) (rest : WrittenText) :
    bytes? (.codeUnit n :: rest) =
      (bytes? rest).map (Utf8.encodeChar (Char.ofNat n) ++ ·) := by
  have leading : isLeading n = false := by
    unfold isLeading
    rw [Bool.and_eq_false_iff]
    exact .inl (decide_eq_false (by omega))
  have trailing : isTrailing n = false := by
    unfold isTrailing
    rw [Bool.and_eq_false_iff]
    exact .inl (decide_eq_false (by omega))
  cases rest with
  | nil => simp only [bytes?, leading, trailing, Bool.or_self, Bool.false_eq_true, if_false]
  | cons piece more =>
      cases piece <;>
        simp only [bytes?, leading, trailing, Bool.or_self, Bool.false_eq_true, if_false]

theorem bytes_writtenChar (c : Char) (rest : WrittenText) :
    bytes? (writtenChar c ++ rest) = (bytes? rest).map (Utf8.encodeChar c ++ ·) := by
  unfold writtenChar
  split
  · rename_i control
    rw [List.singleton_append, bytes_codeUnit control.1, Char.ofNat_toNat]
  · exact bytes_map_byte _ _

theorem bytes_written (text : List Char) :
    bytes? (text.flatMap writtenChar) = some (Utf8.encode text) := by
  induction text with
  | nil => rfl
  | cons c rest ih =>
      rw [List.flatMap_cons, bytes_writtenChar, ih]
      rfl

theorem decode_written (s : String) : decode? (written s) = some s := by
  unfold decode? written
  rw [bytes_written, Option.bind_some]
  exact Utf8.toString_ofString s

end WrittenText

/-! ### Scanning -/

namespace Token

theorem scan_step {mode next : Mode} {b : UInt8} {tokens : List Token}
    (stepped : step? mode b = some (tokens, next)) (rest : List UInt8) :
    scan mode (b :: rest) = (scan next rest).map (tokens ++ ·) := by
  rw [scan, stepped]
  change ((scan next rest).bind fun more => some (tokens ++ more)) = _
  cases scan next rest <;> rfl

theorem scan_silent {mode next : Mode} {b : UInt8} (stepped : step? mode b = some ([], next))
    (rest : List UInt8) : scan mode (b :: rest) = scan next rest := by
  rw [scan_step stepped]
  cases scan next rest <;> rfl

theorem scan_plain {bytes : List UInt8}
    (plain : ∀ b ∈ bytes, 0x20 ≤ b ∧ b ≠ 0x22 ∧ b ≠ 0x5C) (taken : WrittenText)
    (rest : List UInt8) :
    scan (.text taken) (bytes ++ rest) =
      scan (.text ((bytes.map .byte).reverse ++ taken)) rest := by
  induction bytes generalizing taken with
  | nil => rfl
  | cons b more ih =>
      obtain ⟨high, quote, backslash⟩ := plain b List.mem_cons_self
      have stepped : step? (.text taken) b = some ([], .text (.byte b :: taken)) := by
        simp only [step?, beq_iff_eq, quote, backslash, UInt8.not_lt.mpr high, if_false]
      rw [List.cons_append, scan_silent stepped,
        ih fun other member => plain other (List.mem_cons_of_mem _ member)]
      simp only [List.map_cons, List.reverse_cons, List.append_assoc, List.singleton_append]

theorem encodeChar_ascii {c : Char} (ascii : c.toNat < 0x80) :
    Utf8.encodeChar c = [UInt8.ofNat c.toNat] ∧
      Char.ofNat (UInt8.ofNat c.toNat).toNat = c := by
  have byte : (UInt8.ofNat c.toNat).toNat = c.toNat := by
    rw [UInt8.toNat_ofNat']
    omega
  exact ⟨if_pos ascii, by rw [byte, Char.ofNat_toNat]⟩

/-- Every byte of a character that is not escaped stands for itself in a text. -/
theorem encodeChar_plain {c : Char} (printable : 0x20 ≤ c.toNat) (quote : c ≠ '"')
    (backslash : c ≠ '\\') :
    ∀ b ∈ Utf8.encodeChar c, (0x20 : UInt8) ≤ b ∧ b ≠ 0x22 ∧ b ≠ 0x5C := by
  have big (n : Nat) (low : 0x80 ≤ n) (high : n < 256) :
      (0x20 : UInt8) ≤ UInt8.ofNat n ∧ UInt8.ofNat n ≠ 0x22 ∧ UInt8.ofNat n ≠ 0x5C := by
    have byte : (UInt8.ofNat n).toNat = n := by
      rw [UInt8.toNat_ofNat']
      omega
    refine ⟨?_, ?_, ?_⟩
    · rw [UInt8.le_iff_toNat_le, byte]
      change 0x20 ≤ n
      omega
    · intro same
      have code := congrArg UInt8.toNat same
      rw [byte] at code
      change n = 0x22 at code
      omega
    · intro same
      have code := congrArg UInt8.toNat same
      rw [byte] at code
      change n = 0x5C at code
      omega
  obtain ⟨most, -⟩ := Utf8.code_bounds c
  intro b member
  unfold Utf8.encodeChar at member
  simp only at member
  split at member
  · rename_i one
    rw [List.mem_singleton.mp member]
    have byte : (UInt8.ofNat c.toNat).toNat = c.toNat := by
      rw [UInt8.toNat_ofNat']
      omega
    have other (d : Char) (different : c ≠ d) : c.toNat ≠ d.toNat :=
      fun same => different (Char.ext (UInt32.toNat_inj.mp same))
    refine ⟨?_, ?_, ?_⟩
    · rw [UInt8.le_iff_toNat_le, byte]
      exact printable
    · intro same
      have code := congrArg UInt8.toNat same
      rw [byte] at code
      exact other '"' quote code
    · intro same
      have code := congrArg UInt8.toNat same
      rw [byte] at code
      exact other '\\' backslash code
  · unfold Utf8.continuation at member
    split at member
    · simp only [List.mem_cons, List.not_mem_nil, or_false] at member
      rcases member with rfl | rfl <;> exact big _ (by omega) (by omega)
    · split at member
      · simp only [List.mem_cons, List.not_mem_nil, or_false] at member
        rcases member with rfl | rfl | rfl <;> exact big _ (by omega) (by omega)
      · simp only [List.mem_cons, List.not_mem_nil, or_false] at member
        rcases member with rfl | rfl | rfl | rfl <;> exact big _ (by omega) (by omega)

private theorem digit_ascii_small (n : Fin 16) : (Hex.digit n.val).toNat < 0x80 := by
  revert n
  decide

theorem digit_ascii (n : Nat) : (Hex.digit n).toNat < 0x80 := by
  have same : Hex.digit n = Hex.digit (n % 16) := by
    unfold Hex.digit
    rw [Nat.mod_mod]
  rw [same]
  exact digit_ascii_small ⟨n % 16, Nat.mod_lt n (by decide)⟩

theorem scan_hex (taken : WrittenText) (width n value : Nat) (rest : List UInt8) :
    scan (.hex taken (width + 1) value) (Utf8.encode (Hex.ofNat (width + 1) n) ++ rest) =
      scan (.text (.codeUnit (value * 16 ^ (width + 1) + n % 16 ^ (width + 1)) :: taken))
        rest := by
  induction width generalizing value with
  | zero =>
      obtain ⟨bytes, back⟩ := encodeChar_ascii (digit_ascii n)
      have digits : Hex.ofNat (0 + 1) n = [Hex.digit n] := by
        rw [Hex.ofNat_succ, Nat.pow_eq, Nat.pow_zero, Nat.div_one]
        rfl
      have stepped : step? (.hex taken (0 + 1) value) (UInt8.ofNat (Hex.digit n).toNat) =
          some ([], .text (.codeUnit (16 * value + n % 16) :: taken)) := by
        simp only [step?, back, Hex.value_digit, Option.map_some]
        rfl
      rw [digits]
      unfold Utf8.encode
      rw [List.flatMap_cons, List.flatMap_nil, List.append_nil, bytes, List.singleton_append,
        scan_silent stepped, Nat.zero_add, Nat.pow_one, Nat.mul_comm 16 value]
  | succ width ih =>
      obtain ⟨bytes, back⟩ := encodeChar_ascii (digit_ascii (n / Nat.pow 16 (width + 1)))
      have stepped : step? (.hex taken (width + 1 + 1) value)
          (UInt8.ofNat (Hex.digit (n / Nat.pow 16 (width + 1))).toNat) =
            some ([], .hex taken (width + 1)
              (16 * value + n / Nat.pow 16 (width + 1) % 16)) := by
        simp only [step?, back, Hex.value_digit, Option.map_some]
        rw [if_neg (by omega), Nat.add_sub_cancel]
      rw [Hex.ofNat_succ]
      unfold Utf8.encode at ih ⊢
      rw [List.flatMap_cons, bytes, List.append_assoc, List.singleton_append,
        scan_silent stepped, ih]
      congr 4
      rw [Nat.mod_pow_succ (x := n) (b := 16) (k := width + 1), Nat.pow_succ 16 (width + 1),
        Nat.pow_eq]
      ring

theorem scan_simpleEscape {letter plain : UInt8} (known : simpleEscape? letter = some plain)
    (noUnicode : letter ≠ 0x75) (taken : WrittenText) (rest : List UInt8) :
    scan (.text taken) (0x5C :: letter :: rest) = scan (.text (.byte plain :: taken)) rest := by
  have opened : step? (.text taken) 0x5C = some ([], .escape taken) := rfl
  have closed : step? (.escape taken) letter = some ([], .text (.byte plain :: taken)) := by
    simp only [step?, beq_iff_eq, noUnicode, if_false, known, Option.map_some]
  rw [scan_silent opened, scan_silent closed]

/-- What is written for a character inside a text is scanned into its pieces. -/
theorem scan_escape (c : Char) (taken : WrittenText) (rest : List UInt8) :
    scan (.text taken) (Utf8.encode (escape c) ++ rest) =
      scan (.text ((writtenChar c).reverse ++ taken)) rest := by
  have ofCode (d : Char) (same : c.toNat = d.toNat) : c = d := Char.ext (UInt32.toNat_inj.mp same)
  unfold escape
  split
  · rename_i quote
    subst quote
    exact scan_simpleEscape (by decide) (by decide) taken rest
  split
  · rename_i backslash
    subst backslash
    exact scan_simpleEscape (by decide) (by decide) taken rest
  split
  · rename_i backspace
    obtain rfl := ofCode (Char.ofNat 0x08) backspace
    exact scan_simpleEscape (by decide) (by decide) taken rest
  split
  · rename_i formFeed
    obtain rfl := ofCode (Char.ofNat 0x0C) formFeed
    exact scan_simpleEscape (by decide) (by decide) taken rest
  split
  · rename_i lineFeed
    subst lineFeed
    exact scan_simpleEscape (by decide) (by decide) taken rest
  split
  · rename_i carriageReturn
    subst carriageReturn
    exact scan_simpleEscape (by decide) (by decide) taken rest
  split
  · rename_i tab
    subst tab
    exact scan_simpleEscape (by decide) (by decide) taken rest
  split
  · rename_i noBackspace noFormFeed noLineFeed noReturn noTab control
    have others : c.toNat ∉ [0x08, 0x09, 0x0A, 0x0C, 0x0D] := by
      simp only [List.mem_cons, List.not_mem_nil, or_false, not_or]
      exact ⟨noBackspace, fun same => noTab (ofCode '\t' same),
        fun same => noLineFeed (ofCode '\n' same), noFormFeed,
        fun same => noReturn (ofCode '\r' same)⟩
    have opened : step? (.text taken) 0x5C = some ([], .escape taken) := rfl
    have unicode : step? (.escape taken) 0x75 = some ([], .hex taken 4 0) := rfl
    have front : Utf8.encode ('\\' :: 'u' :: Hex.ofNat 4 c.toNat) =
        0x5C :: 0x75 :: Utf8.encode (Hex.ofNat 4 c.toNat) := rfl
    have value : 0 * 16 ^ (3 + 1) + c.toNat % 16 ^ (3 + 1) = c.toNat := by omega
    unfold writtenChar
    rw [if_pos ⟨control, others⟩, front, List.cons_append, List.cons_append,
      scan_silent opened, scan_silent unicode, scan_hex taken 3, value]
    rfl
  · rename_i quote backslash _ _ _ _ _ printable
    have plain := encodeChar_plain (Nat.not_lt.mp printable) quote backslash
    unfold writtenChar
    rw [if_neg fun control => printable control.1]
    unfold Utf8.encode
    rw [List.flatMap_cons, List.flatMap_nil, List.append_nil]
    exact scan_plain plain taken rest

theorem scan_quoted (s : String) (rest : List UInt8) :
    scan .between (Utf8.encode (quoted s) ++ rest) =
      (scan .between rest).map (.text (written s) :: ·) := by
  have inside (text : List Char) (taken : WrittenText) (more : List UInt8) :
      scan (.text taken) (Utf8.encode (text.flatMap escape) ++ more) =
        scan (.text ((text.flatMap writtenChar).reverse ++ taken)) more := by
    induction text generalizing taken with
    | nil => rfl
    | cons c others ih =>
        have split : Utf8.encode (escape c ++ others.flatMap escape) =
            Utf8.encode (escape c) ++ Utf8.encode (others.flatMap escape) :=
          List.flatMap_append
        rw [List.flatMap_cons, List.flatMap_cons, split, List.append_assoc, scan_escape, ih,
          List.reverse_append, List.append_assoc]
  have opened : step? .between 0x22 = some ([], .text []) := rfl
  have closed : step? (.text (written s).reverse) 0x22 =
      some ([.text (written s)], .between) := by
    have back := List.reverse_reverse (written s)
    simp only [step?, beq_self_eq_true, if_true, back]
  have split : Utf8.encode (quoted s) =
      0x22 :: (Utf8.encode (s.toList.flatMap escape) ++ [0x22]) := by
    unfold quoted Utf8.encode
    rw [List.cons_append, List.flatMap_cons, List.flatMap_append]
    rfl
  rw [split, List.cons_append, scan_silent opened, List.append_assoc, inside,
    List.append_nil, List.singleton_append]
  exact scan_step closed rest

end Token

end RolloutWatch.Json

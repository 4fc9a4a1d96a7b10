import RolloutWatch.EntityId
import Mathlib.Tactic.Ring

/-!
The text of an identifier is read back as the identifier. Digits are read from the most
significant one on, so the induction is on their number with what has been read before as
the accumulator.
-/

namespace RolloutWatch

namespace Hex

private theorem value_digit_small (n : Fin 16) : value? (digit n.val) = some n.val := by
  revert n
  decide

theorem value_digit (n : Nat) : value? (digit n) = some (n % 16) := by
  have below : n % 16 < 16 := Nat.mod_lt n (by decide)
  have same : digit n = digit (n % 16) := by
    unfold digit
    rw [Nat.mod_mod]
  rw [same]
  exact value_digit_small ⟨n % 16, below⟩

theorem ofNat_succ (width n : Nat) :
    ofNat (width + 1) n = digit (n / Nat.pow 16 width) :: ofNat width n := by
  unfold ofNat
  rw [List.range_succ, List.reverse_append]
  rfl

theorem ofNat_length (width n : Nat) : (ofNat width n).length = width := by
  unfold ofNat
  rw [List.length_map, List.length_reverse, List.length_range]

private theorem foldlM_ofNat (width n before : Nat) :
    (ofNat width n).foldlM (fun n c => (value? c).map fun d => 16 * n + d) before =
      some (before * 16 ^ width + n % 16 ^ width) := by
  induction width generalizing before with
  | zero =>
      rw [Nat.pow_zero, Nat.mod_one, Nat.mul_one, Nat.add_zero]
      rfl
  | succ width ih =>
      rw [ofNat_succ, List.foldlM_cons, value_digit]
      have read := ih (16 * before + n / Nat.pow 16 width % 16)
      refine read.trans (congrArg some ?_)
      rw [Nat.mod_pow_succ, Nat.pow_succ, Nat.pow_eq]
      ring

/-- Reading digits gives the number that they write, cut to their width. -/
theorem toNat_ofNat (width n : Nat) : toNat? (ofNat width n) = some (n % 16 ^ width) := by
  have read := foldlM_ofNat width n 0
  rw [Nat.zero_mul, Nat.zero_add] at read
  exact read

end Hex

namespace EntityId

theorem hyphenate_length (size : Nat) (sizes : List Nat) (digits : List Char)
    (enough : digits.length = (size :: sizes).sum) :
    (hyphenate (size :: sizes) digits).length = digits.length + sizes.length := by
  induction sizes generalizing size digits with
  | nil =>
      rw [List.sum_cons, List.sum_nil, Nat.add_zero] at enough
      simp only [hyphenate, List.length_take, List.length_nil]
      omega
  | cons next rest ih =>
      rw [List.sum_cons] at enough
      have others := ih next (digits.drop size) (by rw [List.length_drop]; omega)
      simp only [hyphenate, List.length_append, List.length_cons, others, List.length_take,
        List.length_drop]
      omega

/-- Hyphens are put where they are looked for. -/
theorem unhyphenate_hyphenate (size : Nat) (sizes : List Nat) (digits : List Char)
    (enough : digits.length = (size :: sizes).sum) :
    unhyphenate? (size :: sizes) (hyphenate (size :: sizes) digits) = some digits := by
  induction sizes generalizing size digits with
  | nil =>
      rw [List.sum_cons, List.sum_nil, Nat.add_zero] at enough
      simp only [hyphenate, unhyphenate?, List.take_of_length_le (Nat.le_of_eq enough), enough,
        if_true]
  | cons next rest ih =>
      rw [List.sum_cons] at enough
      have head : (digits.take size).length = size := by
        rw [List.length_take]
        omega
      have others := ih next (digits.drop size) (by rw [List.length_drop]; omega)
      simp only [hyphenate, unhyphenate?, List.drop_left' head, List.take_left' head, others,
        Option.map_some, List.take_append_drop]

theorem chars_length (id : EntityId) : id.chars.length = 36 := by
  have digits := Hex.ofNat_length 32 id.bits.toNat
  have lengths := hyphenate_length 8 [4, 4, 4, 12] _ digits
  rw [digits] at lengths
  exact lengths

theorem ofString_text (id : EntityId) : ofString? id.text = some id := by
  have digits := Hex.ofNat_length 32 id.bits.toNat
  have unhyphenated : unhyphenate? groups id.chars = some (Hex.ofNat 32 id.bits.toNat) :=
    unhyphenate_hyphenate 8 [4, 4, 4, 12] _ digits
  have bounded : id.bits.toNat % 16 ^ 32 = id.bits.toNat := Nat.mod_eq_of_lt id.bits.isLt
  have read : ofDigits? (Hex.ofNat 32 id.bits.toNat) = some id := by
    unfold ofDigits?
    rw [if_pos digits, Hex.toNat_ofNat, bounded, Option.map_some, ofNat, BitVec.ofNat_toNat,
      BitVec.setWidth_eq]
  unfold ofString? text ofChars?
  rw [String.toList_ofList, chars_length]
  simp only
  unfold ofHyphenated?
  rw [if_pos (chars_length id), unhyphenated, Option.bind_some, read]

theorem text_injective {a b : EntityId} (same : a.text = b.text) : a = b := by
  have read := ofString_text a
  rw [same, ofString_text b] at read
  exact (Option.some.inj read).symm

end EntityId

end RolloutWatch

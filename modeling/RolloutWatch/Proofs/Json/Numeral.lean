import RolloutWatch.Proofs.Json.Document
import RolloutWatch.Proofs.Number.Digits

/-!
Numbers in documents. Whatever is a numeral is one word to the scanner, so a number is legible
if its text is a numeral. The texts of integers are, and the ones of 64 bits are read back.
-/

namespace RolloutWatch.Json

/-! ### A numeral is a word -/

theorem isWordChar_digit {c : Char} (digit : Digits.isDigit c = true) : isWordChar c = true := by
  obtain ⟨low, high⟩ := (Digits.isDigit_iff c).mp digit
  have small (n : Fin 10) : Token.isWordByte (UInt8.ofNat (48 + n.val)) = true := by
    revert n
    decide
  have found := small ⟨c.toNat - 48, by omega⟩
  rw [Nat.add_sub_of_le low] at found
  unfold isWordChar
  rw [found, Bool.and_true, decide_eq_true_eq]
  omega

namespace Numeral

theorem splitDigits_append (text : List Char) :
    (splitDigits text).1 ++ (splitDigits text).2 = text :=
  List.takeWhile_append_dropWhile

theorem splitDigits_word (text : List Char) : ∀ c ∈ (splitDigits text).1, isWordChar c = true :=
  fun _ member => isWordChar_digit (List.mem_takeWhile_imp member)

theorem exponentPart_cons {mark : Char} {rest : List Char} {exponent : Option (Bool × List Char)}
    (part : exponentPart? (mark :: rest) = some exponent) :
    (mark = 'e' ∨ mark = 'E') ∧
      ∃ sign digits, rest = sign ++ digits ∧ (∀ c ∈ sign, c = '-' ∨ c = '+') ∧
        digits.all Digits.isDigit = true := by
  have digitsOnly {negative : Bool} {digits : List Char}
      (part : (if digits ≠ [] ∧ digits.all Digits.isDigit = true then
        some (some (negative, digits)) else none) = some exponent) :
      digits.all Digits.isDigit = true := by
    split at part
    · exact And.right ‹_›
    · cases part
  unfold exponentPart? at part
  by_cases letter : mark = 'e' ∨ mark = 'E'
  · refine ⟨letter, ?_⟩
    simp only [if_pos letter] at part
    split at part
    · exact ⟨['-'], _, rfl, by simp, digitsOnly part⟩
    · exact ⟨['+'], _, rfl, by simp, digitsOnly part⟩
    · exact ⟨[], _, rfl, by simp, digitsOnly part⟩
  · simp only [if_neg letter] at part
    cases part

theorem exponentPart_word {text : List Char} {exponent : Option (Bool × List Char)}
    (part : exponentPart? text = some exponent) : ∀ c ∈ text, isWordChar c = true := by
  cases text with
  | nil => exact fun _ member => by cases member
  | cons mark rest =>
      obtain ⟨letter, sign, digits, rfl, signs, all⟩ := exponentPart_cons part
      refine List.forall_mem_cons.mpr ⟨?_, ?_⟩
      · rcases letter with rfl | rfl <;> rfl
      · intro c member
        rcases List.mem_append.mp member with inSign | inDigits
        · rcases signs c inSign with rfl | rfl <;> rfl
        · exact isWordChar_digit (List.all_eq_true.mp all c inDigits)

/-- The part behind the digits in front: a point and places, an exponent, both or neither. -/
theorem behind_word {negative : Bool} {whole behind : List Char} {numeral : Numeral}
    (reads : (match behind with
      | '.' :: rest =>
          let (places, rest) := splitDigits rest
          if places = [] then none
          else
            (exponentPart? rest).map fun exponent =>
              { negative, whole, places := some places, exponent }
      | rest =>
          (exponentPart? rest).map fun exponent =>
            { negative, whole, places := none, exponent }) = some numeral) :
    ∀ c ∈ behind, isWordChar c = true := by
  split at reads
  · rename_i rest
    have places := splitDigits_word rest
    have parts := splitDigits_append rest
    dsimp only at reads
    split at reads
    · cases reads
    · obtain ⟨exponent, part, -⟩ := Option.map_eq_some_iff.mp reads
      rw [← parts]
      exact List.forall_mem_cons.mpr ⟨rfl, fun c member =>
        (List.mem_append.mp member).elim (places c) (exponentPart_word part c)⟩
  · obtain ⟨exponent, part, -⟩ := Option.map_eq_some_iff.mp reads
    exact exponentPart_word part

theorem word_of_ofChars {text : List Char} {numeral : Numeral}
    (reads : ofChars? text = some numeral) :
    text ≠ [] ∧ ∀ c ∈ text, isWordChar c = true := by
  unfold ofChars? at reads
  split at reads
  rename_i negative rest signed
  split at reads
  rename_i whole behind cut
  have digits := splitDigits_word rest
  have parts := splitDigits_append rest
  rw [cut] at digits parts
  split at reads
  · cases reads
  · rename_i proper
    have unsigned : ∀ c ∈ rest, isWordChar c = true := by
      rw [← parts]
      exact fun c member =>
        (List.mem_append.mp member).elim (digits c) (behind_word reads c)
    split at signed
    · cases signed
      exact ⟨List.cons_ne_nil _ _, List.forall_mem_cons.mpr ⟨rfl, unsigned⟩⟩
    · cases signed
      refine ⟨fun empty => proper (.inl ?_), unsigned⟩
      rw [empty] at cut
      exact (Prod.mk.inj cut).1.symm

end Numeral

namespace Number

theorem legible_of_ofChars {n : Number} {numeral : Numeral}
    (reads : Numeral.ofChars? n.chars = some numeral) : n.Legible := by
  obtain ⟨nonempty, word⟩ := Numeral.word_of_ofChars reads
  have unlike {text : List Char} (none : Numeral.ofChars? text = none) : n.chars ≠ text := by
    rintro rfl
    rw [reads] at none
    cases none
  refine ⟨nonempty, word, ?_⟩
  unfold Token.ofWord? token
  rw [if_neg (unlike rfl), if_neg (unlike rfl), if_neg (unlike rfl), reads]
  rfl

theorem tree_of_ofChars {n : Number} {numeral : Numeral}
    (reads : Numeral.ofChars? n.chars = some numeral) : n.tree = .number numeral := by
  unfold tree
  rw [reads]

end Number

/-! ### Integers -/

theorem ofChars_ofInt (i : Int) :
    Numeral.ofChars? (Digits.ofInt i) =
      some { negative := i < 0, whole := Digits.ofNat i.natAbs, places := none,
             exponent := none } := by
  have digits := Digits.ofNat_isDigit i.natAbs
  have cut : Numeral.splitDigits (Digits.ofNat i.natAbs) = (Digits.ofNat i.natAbs, []) := by
    have parts := Digits.takeWhile_isDigit digits [] (fun _ absent => by cases absent)
    rw [List.append_nil] at parts
    exact Prod.ext parts.1 parts.2
  have proper : ¬(Digits.ofNat i.natAbs = [] ∨
      (Digits.ofNat i.natAbs).head? = some '0' ∧ Digits.ofNat i.natAbs ≠ ['0']) := by
    rintro (empty | ⟨leading, more⟩)
    · exact Digits.ofNat_ne_nil _ empty
    · exact more (Digits.ofNat_leading_zero _ leading)
  by_cases below : i < 0
  · rw [Digits.ofInt, if_pos below]
    simp only [Numeral.ofChars?, cut, if_neg proper, Numeral.exponentPart?, Option.map_some, below,
      decide_true]
  · rw [Digits.ofInt, if_neg below, Numeral.ofChars?]
    · simp only [cut, if_neg proper, Numeral.exponentPart?, Option.map_some, below, decide_false]
    · intro more sign
      have minus := digits '-' (by rw [sign]; exact List.mem_cons_self)
      exact absurd minus (by decide)

namespace Number

/-- Integers that a document gives back, from the signed and the unsigned ones of 64 bits. -/
def IsInteger64 : Number → Prop
  | .integer i => -(2 ^ 63) ≤ i ∧ i < 2 ^ 64
  | .real _ => False

theorem number_ofInt (i : Int) (low : -(2 ^ 63) ≤ i) (high : i < 2 ^ 64) :
    (Numeral.ofChars? (Digits.ofInt i)).bind Numeral.number? = some (.integer i) := by
  rw [ofChars_ofInt, Option.bind_some]
  unfold Numeral.number?
  simp only [Digits.toNat_ofNat]
  have fits : Numeral.fits i.natAbs = true := by
    refine decide_eq_true ?_
    change i.natAbs < 2 ^ 64
    omega
  rw [if_pos fits]
  by_cases below : i < 0
  · have size : 0 < i.natAbs ∧ i.natAbs ≤ Nat.pow 2 63 := by
      change 0 < i.natAbs ∧ i.natAbs ≤ 2 ^ 63
      omega
    have back : -(i.natAbs : Int) = i := by omega
    simp only [below, decide_true, Bool.not_true, Bool.false_eq_true, if_false, if_pos size, back]
  · have back : (i.natAbs : Int) = i := by omega
    simp only [below, decide_false, Bool.not_false, if_true, back]

end Number

end RolloutWatch.Json

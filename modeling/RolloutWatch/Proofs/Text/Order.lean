import RolloutWatch.Proofs.Text.Utf8
import Mathlib.Data.String.Basic

/-!
The order of texts. Texts are compared by their characters, and that is the order of their
bytes: a character with a greater code has a greater first byte, or the same one and greater
bits behind it.
-/

namespace RolloutWatch.Utf8

theorem lessThan_cons {a b : UInt8} {as bs : List UInt8}
    (less : a.toNat < b.toNat ∨ a.toNat = b.toNat ∧ lessThan as bs = true) :
    lessThan (a :: as) (b :: bs) = true := by
  rw [lessThan, Bool.or_eq_true, Bool.and_eq_true, decide_eq_true_eq, beq_iff_eq]
  rcases less with first | ⟨same, rest⟩
  · exact .inl (UInt8.lt_iff_toNat_lt.mpr first)
  · exact .inr ⟨UInt8.toNat_inj.mp same, rest⟩

theorem lessThan_continuation {n m : Nat} {as bs : List UInt8}
    (less : n % 64 < m % 64 ∨ n % 64 = m % 64 ∧ lessThan as bs = true) :
    lessThan (continuation n :: as) (continuation m :: bs) = true := by
  apply lessThan_cons
  rw [continuation_toNat, continuation_toNat]
  rcases less with first | ⟨same, rest⟩
  · exact .inl (Nat.add_lt_add_left first _)
  · exact .inr ⟨congrArg _ same, rest⟩

theorem lessThan_append_left (front as bs : List UInt8) :
    lessThan (front ++ as) (front ++ bs) = lessThan as bs := by
  induction front with
  | nil => rfl
  | cons byte rest ih =>
      rw [List.cons_append, List.cons_append, lessThan, ih, decide_eq_false (UInt8.lt_irrefl byte),
        beq_self_eq_true, Bool.false_or, Bool.true_and]

theorem lessThan_asymm {as bs : List UInt8} (less : lessThan as bs = true) :
    lessThan bs as = false := by
  induction as generalizing bs with
  | nil =>
      cases bs with
      | nil => cases less
      | cons b rest => rfl
  | cons a rest ih =>
      cases bs with
      | nil => cases less
      | cons b more =>
          rw [lessThan, Bool.or_eq_true, Bool.and_eq_true, decide_eq_true_eq, beq_iff_eq] at less
          rw [lessThan, Bool.or_eq_false_iff, Bool.and_eq_false_iff, decide_eq_false_iff_not]
          rcases less with first | ⟨same, later⟩
          · exact ⟨UInt8.lt_asymm first, .inl (beq_eq_false_iff_ne.mpr (UInt8.ne_of_lt first).symm)⟩
          · rw [same]
            exact ⟨UInt8.lt_irrefl b, .inr (ih later)⟩

/-- The bytes of a character: one for the smallest codes, and up to four for the greatest. -/
theorem encodeChar_cases (c : Char) :
    c.toNat < 0x80 ∧ encodeChar c = [UInt8.ofNat c.toNat] ∨
      (0x80 ≤ c.toNat ∧ c.toNat < 0x800) ∧
        encodeChar c = [UInt8.ofNat (0xC0 + c.toNat / 64), continuation c.toNat] ∨
      (0x800 ≤ c.toNat ∧ c.toNat < 0x10000) ∧
        encodeChar c =
          [UInt8.ofNat (0xE0 + c.toNat / 4096), continuation (c.toNat / 64),
            continuation c.toNat] ∨
      0x10000 ≤ c.toNat ∧
        encodeChar c =
          [UInt8.ofNat (0xF0 + c.toNat / 262144), continuation (c.toNat / 4096),
            continuation (c.toNat / 64), continuation c.toNat] := by
  unfold encodeChar
  simp only
  generalize c.toNat = n
  split
  · rename_i one
    exact .inl ⟨one, rfl⟩
  · split
    · rename_i notOne two
      exact .inr (.inl ⟨⟨Nat.le_of_not_lt notOne, two⟩, rfl⟩)
    · split
      · rename_i notTwo three
        exact .inr (.inr (.inl ⟨⟨Nat.le_of_not_lt notTwo, three⟩, rfl⟩))
      · rename_i notThree
        exact .inr (.inr (.inr ⟨Nat.le_of_not_lt notThree, rfl⟩))

/-- A character with a smaller code comes first by its bytes, whatever follows. Sequences of
different lengths differ in their first bytes, and those of one length in the first bits that
differ. -/
theorem lessThan_encodeChar {c d : Char} (less : c.toNat < d.toNat) (as bs : List UInt8) :
    lessThan (encodeChar c ++ as) (encodeChar d ++ bs) = true := by
  obtain ⟨most, -⟩ := code_bounds d
  have byte {k : Nat} (small : k < 256) : (UInt8.ofNat k).toNat = k := by
    rw [UInt8.toNat_ofNat']
    omega
  have leads {k l : Nat} {x y : List UInt8} (first : k < l ∨ k = l ∧ lessThan x y = true)
      (small : k < 256) (alsoSmall : l < 256) :
      lessThan (UInt8.ofNat k :: x) (UInt8.ofNat l :: y) = true := by
    apply lessThan_cons
    rw [byte small, byte alsoSmall]
    exact first
  rcases encodeChar_cases c with ⟨one, cBytes⟩ | ⟨two, cBytes⟩ | ⟨three, cBytes⟩ | ⟨four, cBytes⟩ <;>
    rcases encodeChar_cases d with
      ⟨dOne, dBytes⟩ | ⟨dTwo, dBytes⟩ | ⟨dThree, dBytes⟩ | ⟨dFour, dBytes⟩ <;>
    rw [cBytes, dBytes] <;>
    clear cBytes dBytes <;>
    generalize c.toNat = n at * <;>
    generalize d.toNat = m at *
  all_goals first
    | omega
    | exact leads (.inl (by omega)) (by omega) (by omega)
    | skip
  · have bits : n / 64 < m / 64 ∨ n / 64 = m / 64 ∧ n % 64 < m % 64 := by omega
    refine leads ?_ (by omega) (by omega)
    rcases bits with first | ⟨same, last⟩
    · exact .inl (Nat.add_lt_add_left first _)
    · exact .inr ⟨congrArg _ same, lessThan_continuation (.inl last)⟩
  · have bits : n / 4096 < m / 4096 ∨ n / 4096 = m / 4096 ∧
        (n / 64 % 64 < m / 64 % 64 ∨ n / 64 % 64 = m / 64 % 64 ∧ n % 64 < m % 64) := by
      omega
    refine leads ?_ (by omega) (by omega)
    rcases bits with first | ⟨same, second | ⟨alsoSame, last⟩⟩
    · exact .inl (Nat.add_lt_add_left first _)
    · exact .inr ⟨congrArg _ same, lessThan_continuation (.inl second)⟩
    · exact .inr ⟨congrArg _ same,
        lessThan_continuation (.inr ⟨alsoSame, lessThan_continuation (.inl last)⟩)⟩
  · have bits : n / 262144 < m / 262144 ∨ n / 262144 = m / 262144 ∧
        (n / 4096 % 64 < m / 4096 % 64 ∨ n / 4096 % 64 = m / 4096 % 64 ∧
          (n / 64 % 64 < m / 64 % 64 ∨ n / 64 % 64 = m / 64 % 64 ∧ n % 64 < m % 64)) := by
      omega
    refine leads ?_ (by omega) (by omega)
    rcases bits with first | ⟨same, second | ⟨alsoSame, third | ⟨stillSame, last⟩⟩⟩
    · exact .inl (Nat.add_lt_add_left first _)
    · exact .inr ⟨congrArg _ same, lessThan_continuation (.inl second)⟩
    · exact .inr ⟨congrArg _ same,
        lessThan_continuation (.inr ⟨alsoSame, lessThan_continuation (.inl third)⟩)⟩
    · exact .inr ⟨congrArg _ same, lessThan_continuation (.inr ⟨alsoSame,
        lessThan_continuation (.inr ⟨stillSame, lessThan_continuation (.inl last)⟩)⟩)⟩

theorem lessThan_encode {a b : List Char} (less : a < b) :
    lessThan (encode a) (encode b) = true := by
  induction a generalizing b with
  | nil =>
      cases b with
      | nil => exact absurd less (List.lt_irrefl [])
      | cons d rest =>
          unfold encode
          rw [List.flatMap_cons]
          rcases encodeChar_cases d with ⟨-, bytes⟩ | ⟨-, bytes⟩ | ⟨-, bytes⟩ | ⟨-, bytes⟩ <;>
            rw [bytes] <;> rfl
  | cons c cs ih =>
      cases b with
      | nil => exact absurd less (List.not_lt_nil _)
      | cons d ds =>
          unfold encode at ih ⊢
          rw [List.flatMap_cons, List.flatMap_cons]
          rcases List.cons_lt_cons_iff.mp less with first | ⟨rfl, rest⟩
          · exact lessThan_encodeChar first _ _
          · rw [lessThan_append_left]
            exact ih rest

/-- Texts are in the order of their bytes. -/
theorem lessThan_ofString (a b : String) :
    lessThan (ofString a) (ofString b) = decide (a < b) := by
  unfold ofString
  by_cases less : a < b
  · rw [decide_eq_true less]
    exact lessThan_encode (String.lt_iff.mp less)
  · rw [decide_eq_false less]
    by_cases same : a = b
    · have irreflexive := lessThan_append_left (encode b.toList) [] []
      rw [List.append_nil] at irreflexive
      rw [same, irreflexive]
      rfl
    · have greater : b < a := (lt_or_gt_of_ne same).resolve_left less
      exact lessThan_asymm (lessThan_encode (String.lt_iff.mp greater))

end RolloutWatch.Utf8

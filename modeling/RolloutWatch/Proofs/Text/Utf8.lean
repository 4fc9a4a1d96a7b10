import RolloutWatch.Text.Utf8

/-!
The bytes of a text are read back as the text. The cases are the lengths of the sequences,
and each byte behind the first one takes the machine one step further.
-/

namespace RolloutWatch.Utf8

theorem continuation_toNat (n : Nat) : (continuation n).toNat = 0x80 + n % 64 := by
  unfold continuation
  rw [UInt8.toNat_ofNat']
  omega

theorem pieces_last {value low high : Nat} (n : Nat) (rest : List UInt8)
    (above : low ≤ 0x80 + n % 64) (below : 0x80 + n % 64 ≤ high) :
    pieces (some { missing := 1, value, low, high }) (continuation n :: rest) =
      some (Char.ofNat (64 * value + n % 64)) :: pieces none rest := by
  have bits : (0x80 + n % 64) % 64 = n % 64 := by omega
  rw [pieces, continuation_toNat, if_pos ⟨above, below⟩, bits]
  exact if_pos (Nat.le_refl 1)

theorem pieces_more {missing value low high : Nat} (n : Nat) (rest : List UInt8)
    (above : low ≤ 0x80 + n % 64) (below : 0x80 + n % 64 ≤ high) :
    pieces (some { missing := missing + 2, value, low, high }) (continuation n :: rest) =
      pieces
        (some { missing := missing + 1, value := 64 * value + n % 64, low := 0x80, high := 0xBF })
        rest := by
  have bits : (0x80 + n % 64) % 64 = n % 64 := by omega
  rw [pieces, continuation_toNat, if_pos ⟨above, below⟩, bits]
  exact if_neg (by simp only; omega)

theorem pieces_start {byte : UInt8} {pending : Pending} (starts : lead byte = .start pending)
    (rest : List UInt8) : pieces none (byte :: rest) = pieces (some pending) rest := by
  rw [pieces, starts]

theorem code_bounds (c : Char) :
    c.toNat < 0x110000 ∧ (c.toNat < 0xD800 ∨ 0xDFFF < c.toNat) := by
  rcases c.valid with below | ⟨above, most⟩
  · exact ⟨Nat.lt_trans below (by decide), .inl below⟩
  · exact ⟨most, .inr above⟩

theorem pieces_encodeChar (c : Char) (rest : List UInt8) :
    pieces none (encodeChar c ++ rest) = some c :: pieces none rest := by
  obtain ⟨most, noSurrogate⟩ := code_bounds c
  have code := Char.ofNat_toNat c
  unfold encodeChar
  simp only
  generalize c.toNat = n at most noSurrogate code
  split
  · rename_i one
    have byte : (UInt8.ofNat n).toNat = n := by
      rw [UInt8.toNat_ofNat']
      omega
    have first : lead (UInt8.ofNat n) = .char c := by
      unfold lead
      rw [byte, if_pos one, code]
    rw [List.singleton_append, pieces, first]
  · split
    · rename_i notOne two
      have byte : (UInt8.ofNat (0xC0 + n / 64)).toNat = 0xC0 + n / 64 := by
        rw [UInt8.toNat_ofNat']
        omega
      have first : lead (UInt8.ofNat (0xC0 + n / 64)) =
          .start { missing := 1, value := n / 64, low := 0x80, high := 0xBF } := by
        unfold lead
        rw [byte, if_neg (by omega), if_neg (by omega), if_pos (by omega),
          Nat.add_sub_cancel_left]
      have value : 64 * (n / 64) + n % 64 = n := Nat.div_add_mod n 64
      rw [List.cons_append, List.singleton_append, pieces_start first,
        pieces_last n rest (by omega) (by omega), value, code]
    · split
      · rename_i notOne notTwo three
        have byte : (UInt8.ofNat (0xE0 + n / 4096)).toNat = 0xE0 + n / 4096 := by
          rw [UInt8.toNat_ofNat']
          omega
        have first : lead (UInt8.ofNat (0xE0 + n / 4096)) =
            .start
              { missing := 2
                value := n / 4096
                low := if 0xE0 + n / 4096 = 0xE0 then 0xA0 else 0x80
                high := if 0xE0 + n / 4096 = 0xED then 0x9F else 0xBF } := by
          unfold lead
          rw [byte, if_neg (by omega), if_neg (by omega), if_neg (by omega), if_pos (by omega),
            Nat.add_sub_cancel_left]
        have value : 64 * (64 * (n / 4096) + n / 64 % 64) + n % 64 = n := by omega
        rw [List.cons_append, List.cons_append, List.singleton_append, pieces_start first,
          pieces_more (n / 64) _ (by split <;> omega) (by split <;> omega),
          pieces_last n rest (by omega) (by omega), value, code]
      · rename_i notOne notTwo notThree
        have byte : (UInt8.ofNat (0xF0 + n / 262144)).toNat = 0xF0 + n / 262144 := by
          rw [UInt8.toNat_ofNat']
          omega
        have first : lead (UInt8.ofNat (0xF0 + n / 262144)) =
            .start
              { missing := 3
                value := n / 262144
                low := if 0xF0 + n / 262144 = 0xF0 then 0x90 else 0x80
                high := if 0xF0 + n / 262144 = 0xF4 then 0x8F else 0xBF } := by
          unfold lead
          rw [byte, if_neg (by omega), if_neg (by omega), if_neg (by omega),
            if_neg (by omega), if_pos (by omega), Nat.add_sub_cancel_left]
        have value :
            64 * (64 * (64 * (n / 262144) + n / 4096 % 64) + n / 64 % 64) + n % 64 = n := by
          omega
        rw [List.cons_append, List.cons_append, List.cons_append, List.singleton_append,
          pieces_start first,
          pieces_more (n / 4096) _ (by split <;> omega) (by split <;> omega),
          pieces_more (n / 64) _ (by omega) (by omega),
          pieces_last n rest (by omega) (by omega), value, code]

theorem pieces_encode (text : List Char) : pieces none (encode text) = text.map some := by
  induction text with
  | nil => rfl
  | cons c rest ih =>
      unfold encode at ih ⊢
      rw [List.flatMap_cons, pieces_encodeChar, ih, List.map_cons]

theorem decode_encode (text : List Char) : decode? (encode text) = some text := by
  unfold decode?
  rw [pieces_encode]
  induction text with
  | nil => rfl
  | cons c rest ih =>
      rw [List.map_cons, List.mapM_cons, ih]
      rfl

theorem toString_ofString (s : String) : toString? (ofString s) = some s := by
  unfold toString? ofString
  rw [decode_encode, Option.map_some, String.ofList_toList]

end RolloutWatch.Utf8

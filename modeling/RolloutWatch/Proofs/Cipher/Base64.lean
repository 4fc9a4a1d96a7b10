import RolloutWatch.Cipher.Base64

/-!
Encoded bytes are decoded to the bytes. Three bytes are cut into four numbers of six bits and put
together again; one or two bytes at the end leave bits of zero behind, which the reader asks for.
-/

namespace RolloutWatch.Base64

private theorem value_char_small (n : Fin 64) :
    value? (char n.val) = some n.val ∧ char n.val ≠ '=' := by
  revert n
  decide

theorem value_char {n : Nat} (small : n < 64) : value? (char n) = some n :=
  (value_char_small ⟨n, small⟩).1

theorem char_ne_pad {n : Nat} (small : n < 64) : char n ≠ '=' :=
  (value_char_small ⟨n, small⟩).2

theorem ofNat_eq {n : Nat} {b : UInt8} (same : n = b.toNat) : UInt8.ofNat n = b := by
  rw [same, UInt8.ofNat_toNat]

/-! ### The last four characters -/

theorem decodeLast_three {i j k l : Nat} {a b c : UInt8} (bi : i < 64) (bj : j < 64) (bk : k < 64)
    (bl : l < 64) (first : i * 4 + j / 16 = a.toNat) (second : j % 16 * 16 + k / 4 = b.toNat)
    (third : k % 4 * 64 + l = c.toNat) :
    decodeLast? (char i) (char j) (char k) (char l) = some [a, b, c] := by
  simp only [decodeLast?, value_char bi, value_char bj, value_char bk, value_char bl,
    char_ne_pad bk, char_ne_pad bl, if_false, Option.bind_eq_bind, Option.bind_some,
    ofNat_eq first, ofNat_eq second, ofNat_eq third]

theorem decodeLast_two {i j k : Nat} {a b : UInt8} (bi : i < 64) (bj : j < 64) (bk : k < 64)
    (first : i * 4 + j / 16 = a.toNat) (second : j % 16 * 16 + k / 4 = b.toNat)
    (zero : k % 4 = 0) : decodeLast? (char i) (char j) (char k) '=' = some [a, b] := by
  simp only [decodeLast?, value_char bi, value_char bj, value_char bk, char_ne_pad bk, if_false,
    if_true, zero, Option.bind_eq_bind, Option.bind_some, ofNat_eq first, ofNat_eq second]

theorem decodeLast_one {i j : Nat} {a : UInt8} (bi : i < 64) (bj : j < 64)
    (first : i * 4 + j / 16 = a.toNat) (zero : j % 16 = 0) :
    decodeLast? (char i) (char j) '=' '=' = some [a] := by
  simp only [decodeLast?, value_char bi, value_char bj, if_true, zero, and_self,
    Option.bind_eq_bind, Option.bind_some, ofNat_eq first]

/-! ### The whole text -/

/-- Three bytes as one number, cut into four. -/
theorem decodeLast_encoded (a b c : UInt8) :
    decodeLast? (char ((a.toNat * 65536 + b.toNat * 256 + c.toNat) / 262144))
      (char ((a.toNat * 65536 + b.toNat * 256 + c.toNat) / 4096 % 64))
      (char ((a.toNat * 65536 + b.toNat * 256 + c.toNat) / 64 % 64))
      (char ((a.toNat * 65536 + b.toNat * 256 + c.toNat) % 64)) = some [a, b, c] := by
  have ha := a.toNat_lt
  have hb := b.toNat_lt
  have hc := c.toNat_lt
  apply decodeLast_three <;> omega

theorem encode_ne_nil (b : UInt8) (rest : List UInt8) : encode (b :: rest) ≠ [] := by
  match rest with
  | [] => simp [encode]
  | [c] => simp [encode]
  | c :: d :: more => simp [encode]

theorem decode_cons {w x y z : Char} {rest : List Char} {k l : Nat} {bytes more : List UInt8}
    (third : value? y = some k) (fourth : value? z = some l)
    (here : decodeLast? w x y z = some bytes) (later : decode? rest = some more)
    (nonempty : rest ≠ []) : decode? (w :: x :: y :: z :: rest) = some (bytes ++ more) := by
  cases rest with
  | nil => exact absurd rfl nonempty
  | cons v others =>
      rw [decode?, third, fourth, here, later]
      · rfl
      · exact fun same => by cases same

theorem decode_encode : (bytes : List UInt8) → decode? (encode bytes) = some bytes
  | [] => rfl
  | [a] => by
      have ha := a.toNat_lt
      apply decodeLast_one <;> omega
  | [a, b] => by
      have ha := a.toNat_lt
      have hb := b.toNat_lt
      apply decodeLast_two <;> omega
  | [a, b, c] => decodeLast_encoded a b c
  | a :: b :: c :: d :: rest => by
      have later := decode_encode (d :: rest)
      rw [encode]
      exact decode_cons (value_char (by omega)) (value_char (by omega)) (decodeLast_encoded a b c)
        later (encode_ne_nil d rest)

theorem encode_length : (bytes : List UInt8) →
    (encode bytes).length = 4 * ((bytes.length + 2) / 3)
  | [] => rfl
  | [_] => by simp only [encode, List.length_cons, List.length_nil]
  | [_, _] => by simp only [encode, List.length_cons, List.length_nil]
  | a :: b :: c :: rest => by
      have others := encode_length rest
      simp only [encode, List.length_cons, others]
      omega

end RolloutWatch.Base64

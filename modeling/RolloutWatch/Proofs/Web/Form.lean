import RolloutWatch.Proofs.Text.Utf8
import RolloutWatch.Web.Form

/-!
A parameter that is put behind a query is read back as the last one, with its own name and
value, and the parameters before it are read as they were. What is encoded holds neither of
the two marks that set parameters and values apart.
-/

namespace RolloutWatch.Form

/-! ### Encoded text -/

theorem value_upperDigit (n : Nat) : Hex.value? (Hex.upperDigit n) = some (n % 16) := by
  have digits : ∀ k < 16, Hex.value? (Hex.upperDigit k) = some k := by decide
  have same : Hex.upperDigit n = Hex.upperDigit (n % 16) := by
    unfold Hex.upperDigit
    rw [Nat.mod_mod]
  rw [same, digits (n % 16) (Nat.mod_lt n (by decide))]

theorem decodeBytes_char {c : Char} (noPlus : c ≠ '+') (noPercent : c ≠ '%') (rest : List Char) :
    decodeBytes (c :: rest) = Utf8.encodeChar c ++ decodeBytes rest := by
  rw [decodeBytes]
  · exact noPlus
  · intro a b more same
    exact absurd same noPercent

theorem decodeBytes_percent (b : UInt8) (rest : List Char) :
    decodeBytes (percent b.toNat ++ rest) = b :: decodeBytes rest := by
  have small : b.toNat < 256 := b.toNat_lt
  have whole : 16 * (b.toNat / 16 % 16) + b.toNat % 16 = b.toNat := by omega
  unfold percent
  simp only [List.cons_append, List.nil_append]
  rw [decodeBytes, value_upperDigit, value_upperDigit]
  simp only
  rw [whole, UInt8.ofNat_toNat]

theorem isPlain_char : ∀ n < 128, isPlain n = true →
    Char.ofNat n ≠ '+' ∧ Char.ofNat n ≠ '%' ∧
      Utf8.encodeChar (Char.ofNat n) = [UInt8.ofNat n] := by
  decide

theorem isPlain_small {n : Nat} (plain : isPlain n = true) : n < 128 := by
  simp only [isPlain, Bool.or_eq_true, Bool.and_eq_true, decide_eq_true_eq, beq_iff_eq] at plain
  omega

theorem decodeBytes_encodeByte (b : UInt8) (rest : List Char) :
    decodeBytes (encodeByte b ++ rest) = b :: decodeBytes rest := by
  unfold encodeByte
  simp only
  split
  · rename_i space
    have same : b = 32 := by
      rw [← UInt8.ofNat_toNat (x := b), space]
      rfl
    rw [List.singleton_append, decodeBytes, same]
  · split
    · rename_i plain
      obtain ⟨noPlus, noPercent, byte⟩ := isPlain_char b.toNat (isPlain_small plain) plain
      rw [List.singleton_append, decodeBytes_char noPlus noPercent, byte, UInt8.ofNat_toNat]
      rfl
    · exact decodeBytes_percent b rest

theorem decodeBytes_encode (bytes : List UInt8) :
    decodeBytes (bytes.flatMap encodeByte) = bytes := by
  induction bytes with
  | nil => rfl
  | cons b rest ih => rw [List.flatMap_cons, decodeBytes_encodeByte, ih]

theorem decode_encode (s : String) : decode (encode s) = s := by
  unfold decode encode Utf8.decodeLossy Utf8.ofString
  rw [decodeBytes_encode, Utf8.pieces_encode, List.map_map]
  have read : s.toList.map ((fun piece => piece.getD (Char.ofNat 0xFFFD)) ∘ some) = s.toList :=
    List.map_id s.toList
  rw [read, String.ofList_toList]

theorem encodeByte_marks : ∀ n < 256, ∀ c ∈ encodeByte (UInt8.ofNat n), c ≠ '&' ∧ c ≠ '=' := by
  have all : ((List.range 256).all fun n =>
      (encodeByte (UInt8.ofNat n)).all fun c => c ≠ '&' && c ≠ '=') = true := by
    decide +kernel
  intro n small c member
  have each := List.all_eq_true.mp all n (List.mem_range.mpr small)
  have marks := List.all_eq_true.mp each c member
  rwa [Bool.and_eq_true, decide_eq_true_eq, decide_eq_true_eq] at marks

theorem encode_marks {s : String} {c : Char} (member : c ∈ encode s) : c ≠ '&' ∧ c ≠ '=' := by
  obtain ⟨b, -, written⟩ := List.mem_flatMap.mp member
  rw [← UInt8.ofNat_toNat (x := b)] at written
  exact encodeByte_marks b.toNat b.toNat_lt c written

/-! ### Parameters -/

theorem splitAt_ne_nil (mark : Char) (text : List Char) : splitAt mark text ≠ [] := by
  cases text with
  | nil => exact List.cons_ne_nil _ _
  | cons c rest =>
      unfold splitAt
      split
      · exact List.cons_ne_nil _ _
      · split <;> exact List.cons_ne_nil _ _

theorem splitAt_of_absent {mark : Char} {text : List Char} (absent : ∀ c ∈ text, c ≠ mark) :
    splitAt mark text = [text] := by
  induction text with
  | nil => rfl
  | cons c rest ih =>
      obtain ⟨here, later⟩ := List.forall_mem_cons.mp absent
      rw [splitAt, if_neg here, ih later]

theorem splitAt_append (mark : Char) (before behind : List Char) :
    splitAt mark (before ++ mark :: behind) = splitAt mark before ++ splitAt mark behind := by
  induction before with
  | nil => exact if_pos rfl
  | cons c rest ih =>
      rw [List.cons_append, splitAt, splitAt, ih]
      by_cases here : c = mark
      · rw [if_pos here, if_pos here]
        rfl
      · rw [if_neg here, if_neg here]
        cases split : splitAt mark rest with
        | nil => exact absurd split (splitAt_ne_nil mark rest)
        | cons first more => rfl

theorem parameters_append (before behind : List Char) :
    parameters (before ++ '&' :: behind) = parameters before ++ parameters behind := by
  unfold parameters
  rw [splitAt_append, List.filter_append, List.map_append]

theorem parameters_item (name value : String) :
    parameters (encode name ++ '=' :: encode value) = [(name, value)] := by
  have noMark : ∀ c ∈ encode name ++ '=' :: encode value, c ≠ '&' := by
    intro c member
    rcases List.mem_append.mp member with inName | inRest
    · exact (encode_marks inName).1
    · rcases List.mem_cons.mp inRest with rfl | inValue
      · decide
      · exact (encode_marks inValue).1
  have front : (encode name ++ '=' :: encode value).takeWhile (· ≠ '=') = encode name := by
    rw [List.takeWhile_append_of_pos fun c member => decide_eq_true (encode_marks member).2]
    exact List.append_nil _
  have behind : (encode name ++ '=' :: encode value).drop ((encode name).length + 1) =
      encode value := by
    rw [List.drop_append]
    simp only [Nat.le_succ, List.drop_eq_nil_of_le, Nat.add_sub_cancel_left, List.drop_succ_cons,
      List.drop_zero, List.nil_append]
  unfold parameters
  rw [splitAt_of_absent noMark]
  simp only [List.append_eq_nil_iff, reduceCtorEq, and_false, ne_eq, not_false_eq_true,
    decide_true, List.filter_cons_of_pos, List.filter_nil, List.map_cons, List.map_nil]
  rw [front, behind, decode_encode, decode_encode]

end RolloutWatch.Form

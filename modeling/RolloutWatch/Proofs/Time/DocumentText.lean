import RolloutWatch.Proofs.Time.RowText

/-!
The text of an instant in a document. The reader of documents takes years of any length, so the
text of every instant is read back as the instant, and a leap second with it. The reader skips
white space in front of each field, of which the text has none.
-/

namespace RolloutWatch

namespace Digits

theorem isSpace_digit {c : Char} (digit : isDigit c = true) : Blank.isSpace c = false := by
  obtain ⟨low, high⟩ := (isDigit_iff c).mp digit
  unfold Blank.isSpace
  simp only [Bool.or_eq_false_iff, Bool.and_eq_false_iff, decide_eq_false_iff_not,
    beq_eq_false_iff_ne]
  omega

theorem digits_append_ne {digits : List Char} (all : ∀ c ∈ digits, isDigit c = true)
    (nonempty : digits ≠ []) {mark : Char} (noDigit : isDigit mark = false)
    (rest more : List Char) : digits ++ rest ≠ mark :: more := by
  intro same
  obtain ⟨first, others, rfl⟩ := List.exists_cons_of_ne_nil nonempty
  have digit := all first List.mem_cons_self
  rw [(List.cons.inj same).1, noDigit] at digit
  cases digit

end Digits

namespace Blank

theorem trimStart_cons {c : Char} (mark : isSpace c = false) (rest : List Char) :
    trimStart (c :: rest) = c :: rest :=
  List.dropWhile_cons_of_neg (by rw [mark]; exact Bool.false_ne_true)

theorem trimStart_digits {digits : List Char} (all : ∀ c ∈ digits, Digits.isDigit c = true)
    (nonempty : digits ≠ []) (rest : List Char) : trimStart (digits ++ rest) = digits ++ rest := by
  cases digits with
  | nil => exact absurd rfl nonempty
  | cons c more => exact trimStart_cons (Digits.isSpace_digit (all c List.mem_cons_self)) _

end Blank

namespace Rfc3339

open Digits

theorem relaxedMark_cons {mark : Char} (visible : Blank.isSpace mark = false)
    (rest : List Char) : relaxedMark mark (mark :: rest) = some ((), rest) := by
  rw [relaxedMark, Blank.trimStart_cons visible, literal_cons]

theorem relaxedField_padded {n : Nat} (fits : n < 100) (rest : List Char) :
    relaxedField (padded 2 n ++ rest) = some (n, rest) := by
  have digits := padded_isDigit 2 n
  have length := padded_length 2 n (by decide) fits
  unfold relaxedField
  rw [Blank.trimStart_digits digits (padded_ne_nil 2 n (by decide)), number_digits digits (by omega) (by omega)
    (fun short => by omega), toNat_padded]

/-- The digits of a year that has a sign end with the hyphen only. -/
theorem number_signedYear (year : Int) (rest : List Char) :
    Reader.number 1 (padded 4 year.natAbs ++ '-' :: rest).length
      (padded 4 year.natAbs ++ '-' :: rest) = some (year.natAbs, '-' :: rest) := by
  have long : 4 ≤ (padded 4 year.natAbs).length := le_padded_length 4 year.natAbs
  have hyphen : ∀ c, ('-' :: rest).head? = some c → isDigit c = false := by
    intro c first
    rw [← Option.some.inj first]
    rfl
  rw [number_digits (padded_isDigit 4 _) (by omega) (by rw [List.length_append]; omega)
    (fun _ => hyphen), toNat_padded]

theorem relaxedYear_minus (rest : List Char) :
    relaxedYear ('-' :: rest) =
      (Reader.number 1 rest.length rest).map fun (n, rest) => (-(n : Int), rest) :=
  rfl

theorem relaxedYear_plus (rest : List Char) :
    relaxedYear ('+' :: rest) =
      (Reader.number 1 rest.length rest).map fun (n, rest) => ((n : Int), rest) :=
  rfl

theorem relaxedYear_yearText (year : Int) (rest : List Char) :
    relaxedYear (yearText year ++ '-' :: rest) = some (year, '-' :: rest) := by
  unfold yearText
  split
  · rename_i common
    have digits := padded_isDigit 4 year.toNat
    have length := padded_length 4 year.toNat (by decide) (by omega)
    have nonempty := padded_ne_nil 4 year.toNat (by decide)
    have back : ((year.toNat : Nat) : Int) = year := Int.toNat_of_nonneg common.1
    unfold relaxedYear
    rw [Blank.trimStart_digits digits nonempty]
    split
    · exact absurd ‹_› (digits_append_ne digits nonempty rfl _ _)
    · exact absurd ‹_› (digits_append_ne digits nonempty rfl _ _)
    · rw [number_digits digits (by omega) (by omega) (fun short => by omega), toNat_padded]
      exact congrArg (fun year => some (year, '-' :: rest)) back
  · split
    · have back : -((year.natAbs : Nat) : Int) = year := by omega
      rw [List.cons_append, relaxedYear_minus, number_signedYear]
      exact congrArg (fun year => some (year, '-' :: rest)) back
    · have back : ((year.natAbs : Nat) : Int) = year := by omega
      rw [List.cons_append, relaxedYear_plus, number_signedYear]
      exact congrArg (fun year => some (year, '-' :: rest)) back

theorem documentText_eq (t : Instant) :
    documentText t =
      yearText t.civil.year ++ '-' :: (padded 2 t.civil.month ++ '-' ::
        (padded 2 t.civil.day ++ 'T' :: (padded 2 t.civil.hour ++ ':' ::
          (padded 2 t.civil.minute ++ ':' :: (padded 2 t.civil.second ++
            (fractionText t.civil.nano ++ 'Z' :: [])))))) := by
  unfold documentText fieldsText
  simp only [List.append_assoc, List.cons_append]

theorem relaxed_documentText (t : Instant) : relaxed? (documentText t) = some t := by
  obtain ⟨month, day, hour, minute, second, nano⟩ := Civil.bounds t.valid
  obtain ⟨-, -, -, hours, minutes, -⟩ := t.valid
  have written : Instant.ofCivil? t.civil = some t := dif_pos t.valid
  have read : relaxed (documentText t) = some (t, []) := by
    rw [documentText_eq]
    refine bind_of_some (relaxedYear_yearText _ _) ?_
    refine bind_of_some (relaxedMark_cons rfl _) ?_
    refine bind_of_some (relaxedField_padded month _) ?_
    refine bind_of_some (relaxedMark_cons rfl _) ?_
    refine bind_of_some (relaxedField_padded day _) ?_
    refine bind_of_some rfl ?_
    refine bind_of_some (relaxedField_padded hour _) ?_
    refine bind_of_some (relaxedMark_cons rfl _) ?_
    refine bind_of_some (relaxedField_padded minute _) ?_
    refine bind_of_some (relaxedMark_cons rfl _) ?_
    refine bind_of_some (relaxedField_padded second _) ?_
    refine bind_of_some (fraction_fractionText nano _ (by decide) (by decide)) ?_
    refine bind_of_some rfl ?_
    refine bind_of_some written ?_
    rw [toUniversal_zero hours minutes]
    exact bind_of_some written rfl
  unfold relaxed?
  rw [read]
  rfl

end Rfc3339

end RolloutWatch

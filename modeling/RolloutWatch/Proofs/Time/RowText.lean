import RolloutWatch.Proofs.Number.Digits
import RolloutWatch.Store.Row

/-!
The text of an instant in a row. In the years that are written with four digits the text is
read back as the instant, and texts are ordered as the instants are. In all other years the
text has a sign in front, which the reader of rows does not take.
-/

namespace RolloutWatch

/-- The year is written with four digits and without a sign. -/
def Instant.InCommonYears (t : Instant) : Prop :=
  0 ≤ t.civil.year ∧ t.civil.year ≤ 9999

instance (t : Instant) : Decidable t.InCommonYears :=
  inferInstanceAs (Decidable (_ ∧ _))

namespace Rfc3339

open Digits

/-! ### Fractions of a second -/

/-- Places after a point that are worth a count of nanoseconds. -/
structure Places (nano : Nat) (places : List Char) : Prop where
  digits : ∀ c ∈ places, isDigit c = true
  nonempty : 1 ≤ places.length
  most : places.length ≤ 9
  worth : toNat places * 10 ^ (9 - places.length) = nano

theorem places_padded (width : Nat) {n nano : Nat} (positive : 1 ≤ width) (most : width ≤ 9)
    (fits : n < 10 ^ width) (worth : n * 10 ^ (9 - width) = nano) :
    Places nano (padded width n) := by
  have length := padded_length width n positive fits
  exact
    { digits := padded_isDigit width n
      nonempty := by rw [length]; exact positive
      most := by rw [length]; exact most
      worth := by rw [length, toNat_padded]; exact worth }

theorem fractionText_places {nano : Nat} (positive : nano ≠ 0) (below : nano < 1000000000) :
    ∃ places, fractionText nano = '.' :: places ∧ Places nano places := by
  unfold fractionText
  rw [if_neg positive]
  split
  · rename_i whole
    have worth := Nat.div_mul_cancel (Nat.dvd_of_mod_eq_zero whole)
    exact ⟨_, rfl, places_padded 3 (by decide) (by decide) (by omega) worth⟩
  · split
    · rename_i whole
      have worth := Nat.div_mul_cancel (Nat.dvd_of_mod_eq_zero whole)
      exact ⟨_, rfl, places_padded 6 (by decide) (by decide) (by omega) worth⟩
    · exact ⟨_, rfl, places_padded 9 (by decide) (by decide) below (Nat.mul_one nano)⟩

theorem fraction_places {nano : Nat} {places : List Char} (shape : Places nano places)
    {rest : List Char} (stops : ∀ c, rest.head? = some c → isDigit c = false) :
    fraction ('.' :: (places ++ rest)) = some (nano, rest) := by
  have nothing : ∀ c ∈ ([] : List Char), isDigit c = true := fun _ member => by cases member
  obtain ⟨-, left⟩ := takeWhile_isDigit nothing rest stops
  rw [List.nil_append] at left
  unfold fraction
  simp only [digits_append shape.digits shape.nonempty shape.most (fun _ => stops)]
  change some (toNat places * 10 ^ (9 - places.length), rest.dropWhile isDigit) = some (nano, rest)
  rw [left, shape.worth]

theorem fraction_fractionText {nano : Nat} (below : nano < 1000000000) {c : Char}
    (rest : List Char) (sign : c ≠ '.') (stops : isDigit c = false) :
    fraction (fractionText nano ++ c :: rest) = some (nano, c :: rest) := by
  by_cases zero : nano = 0
  · rw [zero]
    change fraction (c :: rest) = some (0, c :: rest)
    unfold fraction
    split
    · rename_i same
      exact absurd (List.cons.inj same).1 sign
    · rfl
  · obtain ⟨places, text, shape⟩ := fractionText_places zero below
    rw [text, List.cons_append]
    apply fraction_places shape
    intro d first
    rw [← Option.some.inj first]
    exact stops

/-- Places are ordered by their worth, if what follows them stands before all digits. -/
theorem places_lt {a b : List Char} (aDigits : ∀ c ∈ a, isDigit c = true)
    (bDigits : ∀ c ∈ b, isDigit c = true) (rest : List Char)
    (less : toNat a * 10 ^ b.length < toNat b * 10 ^ a.length) :
    a ++ '+' :: rest < b ++ '+' :: rest := by
  induction a generalizing b with
  | nil =>
      cases b with
      | nil => exact absurd less (Nat.lt_irrefl _)
      | cons d ds =>
          have digit := (isDigit_iff d).mp (bDigits d List.mem_cons_self)
          apply List.cons_lt_cons_iff.mpr
          left
          change 43 < d.toNat
          omega
  | cons c cs ih =>
      cases b with
      | nil =>
          have zero : toNat [] = 0 := rfl
          rw [zero, Nat.zero_mul] at less
          exact absurd less (Nat.not_lt_zero _)
      | cons d ds =>
          have cDigit := (isDigit_iff c).mp (aDigits c List.mem_cons_self)
          have dDigit := (isDigit_iff d).mp (bDigits d List.mem_cons_self)
          have cValue : value? c = some (c.toNat - 48) := if_pos cDigit
          have dValue : value? d = some (d.toNat - 48) := if_pos dDigit
          have csBound := toNat_lt cs
          have dsBound := toNat_lt ds
          rw [toNat_cons, toNat_cons, cValue, dValue, List.length_cons, List.length_cons,
            Nat.pow_succ, Nat.pow_succ, Option.getD_some, Option.getD_some] at less
          rw [List.cons_append, List.cons_append, List.cons_lt_cons_iff]
          obtain ⟨u, hu⟩ : ∃ u, c.toNat = 48 + u := ⟨c.toNat - 48, by omega⟩
          obtain ⟨v, hv⟩ : ∃ v, d.toNat = 48 + v := ⟨d.toNat - 48, by omega⟩
          rw [hu, hv, Nat.add_sub_cancel_left, Nat.add_sub_cancel_left] at less
          rcases Nat.lt_trichotomy u v with before | same | after
          · left
            change c.toNat < d.toNat
            omega
          · right
            have equal : c = d := Char.ext (UInt32.toNat_inj.mp (by omega : c.toNat = d.toNat))
            refine ⟨equal, ih (fun x member => aDigits x (List.mem_cons_of_mem _ member))
              (fun x member => bDigits x (List.mem_cons_of_mem _ member)) ?_⟩
            rw [same] at less
            nlinarith
          · exfalso
            have far : v + 1 ≤ u := after
            nlinarith [Nat.mul_le_mul_right (10 ^ cs.length * 10 ^ ds.length) far]

theorem fractionText_strictMono {n m : Nat} (less : n < m) (below : m < 1000000000)
    (rest : List Char) : fractionText n ++ '+' :: rest < fractionText m ++ '+' :: rest := by
  obtain ⟨places, text, shape⟩ := fractionText_places (by omega : m ≠ 0) below
  by_cases zero : n = 0
  · rw [zero, text]
    apply List.cons_lt_cons_iff.mpr
    left
    decide
  · obtain ⟨fewer, fewerText, fewerShape⟩ :=
      fractionText_places zero (Nat.lt_trans less below)
    rw [text, fewerText]
    apply List.cons_lt_cons_iff.mpr
    refine .inr ⟨rfl, places_lt fewerShape.digits shape.digits rest ?_⟩
    -- Both sides are counted in nanoseconds.
    have scale (length other : Nat) (most : length ≤ 9) (otherMost : other ≤ 9) :
        10 ^ other * 10 ^ (9 - other) = 10 ^ length * 10 ^ (9 - length) := by
      rw [← Nat.pow_add, ← Nat.pow_add]
      congr 1
      omega
    have same := scale fewer.length places.length fewerShape.most shape.most
    have worth := shape.worth
    have fewerWorth := fewerShape.worth
    have unit : 0 < 10 ^ (9 - fewer.length) * 10 ^ (9 - places.length) := by positivity
    apply Nat.lt_of_mul_lt_mul_right (a := 10 ^ (9 - fewer.length) * 10 ^ (9 - places.length))
    calc toNat fewer * 10 ^ places.length * (10 ^ (9 - fewer.length) * 10 ^ (9 - places.length))
        = toNat fewer * 10 ^ (9 - fewer.length) *
            (10 ^ places.length * 10 ^ (9 - places.length)) := by ring
      _ = n * (10 ^ fewer.length * 10 ^ (9 - fewer.length)) := by rw [fewerWorth, same]
      _ < m * (10 ^ fewer.length * 10 ^ (9 - fewer.length)) :=
          Nat.mul_lt_mul_of_pos_right less (by positivity)
      _ = toNat places * 10 ^ (9 - places.length) *
            (10 ^ fewer.length * 10 ^ (9 - fewer.length)) := by rw [worth]
      _ = toNat places * 10 ^ fewer.length *
            (10 ^ (9 - fewer.length) * 10 ^ (9 - places.length)) := by ring

theorem fractionText_lt_iff {n m : Nat} (nBelow : n < 1000000000) (mBelow : m < 1000000000)
    (rest : List Char) :
    fractionText n ++ '+' :: rest < fractionText m ++ '+' :: rest ↔ n < m := by
  constructor
  · intro less
    rcases Nat.lt_trichotomy n m with before | same | after
    · exact before
    · rw [same] at less
      exact absurd less (List.lt_irrefl _)
    · exact absurd (fractionText_strictMono after nBelow rest) (List.lt_asymm less)
  · exact fun less => fractionText_strictMono less mBelow rest

/-! ### The whole text -/

theorem daysInMonth_le (year : Int) (month : Nat) : Calendar.daysInMonth year month ≤ 31 := by
  unfold Calendar.daysInMonth
  split
  · split <;> omega
  all_goals omega

theorem Civil.bounds {c : Civil} (valid : c.Valid) :
    c.month < 100 ∧ c.day < 100 ∧ c.hour < 100 ∧ c.minute < 100 ∧ c.second < 100 ∧
      c.nano < 1000000000 := by
  obtain ⟨-, month, day, hour, minute, second, nano⟩ := valid
  have most := daysInMonth_le c.year c.month
  refine ⟨?_, ?_, ?_, ?_, ?_, nano⟩ <;> omega

theorem rowText_eq {t : Instant} (common : t.InCommonYears) :
    rowText t =
      padded 4 t.civil.year.toNat ++ '-' :: (padded 2 t.civil.month ++ '-' ::
        (padded 2 t.civil.day ++ 'T' :: (padded 2 t.civil.hour ++ ':' ::
          (padded 2 t.civil.minute ++ ':' :: (padded 2 t.civil.second ++
            (fractionText t.civil.nano ++ '+' :: ['0', '0', ':', '0', '0'])))))) := by
  have year : yearText t.civil.year = padded 4 t.civil.year.toNat := if_pos common
  unfold rowText fieldsText
  rw [year]
  simp only [List.append_assoc, List.cons_append]

theorem toUniversal_zero {c : Civil} (hour : c.hour < 24) (minute : c.minute < 60) :
    c.toUniversal 0 = c := by
  have minutes : (c.hour : Int) * 60 + c.minute - 0 = ((c.hour * 60 + c.minute : Nat) : Int) := by
    push_cast
    ring
  unfold Civil.toUniversal
  simp only [minutes]
  rw [if_neg (by omega), if_neg (by omega)]
  have hours : (c.hour * 60 + c.minute) / 60 = c.hour := by omega
  have rest : (c.hour * 60 + c.minute) % 60 = c.minute := by omega
  simp only [Int.toNat_natCast, hours, rest]

theorem bind_of_some {α β : Type} {first : Option α} {a : α} {next : α → Option β}
    {result : Option β} (found : first = some a) (rest : next a = result) :
    first >>= next = result := by
  rw [found]
  exact rest

theorem literal_cons (c : Char) (rest : List Char) :
    Reader.literal c (c :: rest) = some ((), rest) :=
  if_pos rfl

/-- In common years the text of an instant is read back as the instant. -/
theorem strict_rowText {t : Instant} (common : t.InCommonYears) :
    strict? (rowText t) = some t := by
  have valid := t.valid
  obtain ⟨month, day, hour, minute, second, nano⟩ := Civil.bounds valid
  obtain ⟨-, -, -, hours, minutes, -⟩ := valid
  have year : ((t.civil.year.toNat : Nat) : Int) = t.civil.year :=
    Int.toNat_of_nonneg common.1
  have yearFits : t.civil.year.toNat < 10 ^ 4 := by
    have most := common.2
    omega
  have zone : offset (fun s => (Reader.literal ':' s).map Prod.snd)
      ['+', '0', '0', ':', '0', '0'] = some (0, []) := by decide
  have written : Instant.ofCivil? t.civil = some t := dif_pos t.valid
  have read : strict (rowText t) = some (t, []) := by
    rw [rowText_eq common]
    refine bind_of_some (number_padded 4 _ _ (by decide) yearFits) ?_
    refine bind_of_some (literal_cons '-' _) ?_
    refine bind_of_some (number_padded 2 _ _ (by decide) month) ?_
    refine bind_of_some (literal_cons '-' _) ?_
    refine bind_of_some (number_padded 2 _ _ (by decide) day) ?_
    refine bind_of_some rfl ?_
    refine bind_of_some (number_padded 2 _ _ (by decide) hour) ?_
    refine bind_of_some (literal_cons ':' _) ?_
    refine bind_of_some (number_padded 2 _ _ (by decide) minute) ?_
    refine bind_of_some (literal_cons ':' _) ?_
    refine bind_of_some (number_padded 2 _ _ (by decide) second) ?_
    refine bind_of_some (fraction_fractionText nano _ (by decide) (by decide)) ?_
    refine bind_of_some zone ?_
    simp only [year]
    refine bind_of_some written ?_
    rw [toUniversal_zero hours minutes]
    exact bind_of_some written rfl
  unfold strict?
  rw [read]

theorem append_lt_append_iff {a b x y : List Char} (lengths : a.length = b.length) :
    a ++ x < b ++ y ↔ a < b ∨ a = b ∧ x < y := by
  induction a generalizing b with
  | nil =>
      have empty : b = [] := List.length_eq_zero_iff.mp lengths.symm
      simp [empty]
  | cons c cs ih =>
      cases b with
      | nil => cases lengths
      | cons d ds =>
          rw [List.cons_append, List.cons_append, List.cons_lt_cons_iff, List.cons_lt_cons_iff,
            ih (Nat.succ.inj lengths), List.cons.injEq]
          tauto

theorem padded_append_lt_iff {width n m : Nat} (positive : 0 < width) (nFits : n < 10 ^ width)
    (mFits : m < 10 ^ width) {x y : List Char} :
    padded width n ++ x < padded width m ++ y ↔ n < m ∨ n = m ∧ x < y := by
  have lengths : (padded width n).length = (padded width m).length := by
    rw [padded_length width n positive nFits, padded_length width m positive mFits]
  rw [append_lt_append_iff lengths, padded_lt_iff positive nFits mFits, padded_inj]

theorem cons_lt_cons_same {c : Char} {x y : List Char} : c :: x < c :: y ↔ x < y := by
  rw [List.cons_lt_cons_iff]
  simp

/-- In common years the texts of instants are ordered as the instants are. -/
theorem rowText_lt_iff {a b : Instant} (aCommon : a.InCommonYears)
    (bCommon : b.InCommonYears) : rowText a < rowText b ↔ a.before b = true := by
  obtain ⟨aMonth, aDay, aHour, aMinute, aSecond, aNano⟩ := Civil.bounds a.valid
  obtain ⟨bMonth, bDay, bHour, bMinute, bSecond, bNano⟩ := Civil.bounds b.valid
  rw [rowText_eq aCommon, rowText_eq bCommon]
  obtain ⟨aLow, aHigh⟩ := aCommon
  obtain ⟨bLow, bHigh⟩ := bCommon
  rw [padded_append_lt_iff (by decide) (by omega) (by omega), cons_lt_cons_same,
    padded_append_lt_iff (by decide) aMonth bMonth, cons_lt_cons_same,
    padded_append_lt_iff (by decide) aDay bDay, cons_lt_cons_same,
    padded_append_lt_iff (by decide) aHour bHour, cons_lt_cons_same,
    padded_append_lt_iff (by decide) aMinute bMinute, cons_lt_cons_same,
    padded_append_lt_iff (by decide) aSecond bSecond, fractionText_lt_iff aNano bNano]
  have years : a.civil.year.toNat < b.civil.year.toNat ↔ a.civil.year < b.civil.year := by omega
  have sameYear : a.civil.year.toNat = b.civil.year.toNat ↔ a.civil.year = b.civil.year := by omega
  unfold Instant.before Civil.key
  rw [decide_eq_true_eq, years, sameYear]
  simp only [List.cons_lt_cons_iff, Nat.cast_lt, Nat.cast_inj, List.lt_irrefl, and_false,
    or_false]

end Rfc3339

namespace Column

theorem instant_instantText {t : Instant} (common : t.InCommonYears) :
    instant (instantText t) = .ok t := by
  unfold instant instantText
  rw [String.toList_ofList, Rfc3339.strict_rowText common]

theorem instantText_lt_iff {a b : Instant} (aCommon : a.InCommonYears)
    (bCommon : b.InCommonYears) : instantText a < instantText b ↔ a.before b = true := by
  unfold instantText
  rw [String.lt_iff, String.toList_ofList, String.toList_ofList,
    Rfc3339.rowText_lt_iff aCommon bCommon]

theorem instantText_le_iff {a b : Instant} (aCommon : a.InCommonYears)
    (bCommon : b.InCommonYears) : instantText a ≤ instantText b ↔ b.before a = false := by
  rw [← String.not_lt, instantText_lt_iff bCommon aCommon, Bool.not_eq_true]

end Column

end RolloutWatch

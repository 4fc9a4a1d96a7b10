import RolloutWatch.Number.Decimal
import RolloutWatch.Text.Reader
import Mathlib.Data.List.TakeWhile
import Mathlib.Tactic.Linarith
import Mathlib.Tactic.Ring

/-!
Decimal digits. A number is written without superfluous zeros and its digits are read back as
the number; padded to a width, numbers have texts of one length whose order is the order of the
numbers.
-/

namespace RolloutWatch.Digits

/-! ### One digit -/

private theorem value_char_small (d : Fin 10) : value? (char d.val) = some d.val := by
  revert d
  decide

private theorem char_mod (n : Nat) : char n = char (n % 10) := by
  unfold char
  rw [Nat.mod_mod]

theorem value_char (n : Nat) : value? (char n) = some (n % 10) := by
  have below : n % 10 < 10 := Nat.mod_lt n (by decide)
  rw [char_mod]
  exact value_char_small ⟨n % 10, below⟩

theorem isDigit_char (n : Nat) : isDigit (char n) = true := by
  unfold isDigit
  rw [value_char]
  rfl

theorem isDigit_iff (c : Char) : isDigit c = true ↔ 48 ≤ c.toNat ∧ c.toNat ≤ 57 := by
  have bounds : ('0' ≤ c ∧ c ≤ '9') ↔ 48 ≤ c.toNat ∧ c.toNat ≤ 57 := Iff.rfl
  unfold isDigit value?
  by_cases digit : '0' ≤ c ∧ c ≤ '9'
  · simp only [digit, and_self, if_true, Option.isSome_some, true_iff]
    exact bounds.mp digit
  · rw [if_neg digit]
    simp only [Option.isSome_none, Bool.false_eq_true, false_iff]
    exact fun inside => digit (bounds.mpr inside)

/-! ### Numbers that digits write -/

/-- Digits that follow a number shift it by their count. -/
theorem foldl_digits (digits : List Char) (before : Nat) :
    digits.foldl (fun n c => 10 * n + (value? c).getD 0) before =
      before * 10 ^ digits.length + toNat digits := by
  induction digits generalizing before with
  | nil => simp [toNat]
  | cons c rest ih =>
      have first := ih (10 * before + (value? c).getD 0)
      have alone := ih (10 * 0 + (value? c).getD 0)
      simp only [toNat, List.foldl_cons, List.length_cons] at first alone ⊢
      rw [first, alone, Nat.pow_succ]
      ring

theorem toNat_append (front back : List Char) :
    toNat (front ++ back) = toNat front * 10 ^ back.length + toNat back := by
  unfold toNat
  rw [List.foldl_append]
  exact foldl_digits back _

theorem toNat_cons (c : Char) (rest : List Char) :
    toNat (c :: rest) = (value? c).getD 0 * 10 ^ rest.length + toNat rest := by
  have split := toNat_append [c] rest
  simpa [toNat] using split

theorem toNat_singleton (n : Nat) : toNat [char n] = n % 10 := by
  simp [toNat, value_char]

theorem toNat_zeros (count : Nat) (rest : List Char) :
    toNat (List.replicate count '0' ++ rest) = toNat rest := by
  induction count with
  | zero => rfl
  | succ count ih =>
      have zero : value? '0' = some 0 := by decide
      rw [List.replicate_succ, List.cons_append, toNat_cons, ih, zero]
      simp

theorem toNat_lt (digits : List Char) : toNat digits < 10 ^ digits.length := by
  induction digits with
  | nil => exact Nat.one_pos
  | cons c rest ih =>
      have small : (value? c).getD 0 ≤ 9 := by
        unfold value?
        split
        · rename_i digit
          have high : c.toNat ≤ 57 := digit.2
          simp only [Option.getD_some]
          omega
        · exact Nat.zero_le 9
      rw [toNat_cons, List.length_cons, Nat.pow_succ]
      nlinarith [Nat.zero_le (10 ^ rest.length)]

/-! ### Digits of a number -/

private theorem push_append (fuel n : Nat) (written : List Char) :
    push fuel n written = push fuel n [] ++ written := by
  induction fuel generalizing n written with
  | zero => rfl
  | succ fuel ih =>
      unfold push
      split
      · rfl
      · rw [ih, ih (n / 10) [char (n % 10)], List.append_assoc]
        rfl

private theorem push_enough (fuel more n : Nat) (enough : n < fuel) (also : n < more) :
    push fuel n [] = push more n [] := by
  induction fuel generalizing more n with
  | zero => omega
  | succ fuel ih =>
      cases more with
      | zero => omega
      | succ more =>
          unfold push
          split
          · rfl
          · rw [push_append fuel, push_append more, ih more (n / 10) (by omega) (by omega)]

theorem ofNat_eq (n : Nat) :
    ofNat n = if n < 10 then [char n] else ofNat (n / 10) ++ [char n] := by
  unfold ofNat
  rw [push]
  split
  · rfl
  · rw [push_append, push_enough n (n / 10 + 1) (n / 10) (by omega) (by omega), ← char_mod]

theorem ofNat_isDigit (n : Nat) : ∀ c ∈ ofNat n, isDigit c = true := by
  induction n using Nat.strongRecOn with
  | _ n ih =>
      rw [ofNat_eq]
      split
      · intro c member
        rw [List.mem_singleton.mp member]
        exact isDigit_char n
      · intro c member
        rcases List.mem_append.mp member with earlier | last
        · exact ih (n / 10) (by omega) c earlier
        · rw [List.mem_singleton.mp last]
          exact isDigit_char n

theorem toNat_ofNat (n : Nat) : toNat (ofNat n) = n := by
  induction n using Nat.strongRecOn with
  | _ n ih =>
      rw [ofNat_eq]
      split
      · rw [toNat_singleton]
        omega
      · rw [toNat_append, ih (n / 10) (by omega), toNat_singleton]
        simp only [List.length_singleton, pow_one]
        omega

theorem ofNat_ne_nil (n : Nat) : ofNat n ≠ [] := by
  rw [ofNat_eq]
  split <;> simp

theorem ofNat_leading_zero (n : Nat) (leading : (ofNat n).head? = some '0') :
    ofNat n = ['0'] := by
  induction n using Nat.strongRecOn with
  | _ n ih =>
      rw [ofNat_eq] at leading ⊢
      split at leading
      · rename_i small
        rw [if_pos small, Option.some.inj leading]
      · rename_i large
        obtain ⟨c, more, found⟩ := List.exists_cons_of_ne_nil (ofNat_ne_nil (n / 10))
        rw [found] at leading
        have front := ih (n / 10) (by omega) (by rw [found]; exact leading)
        have zero : toNat (ofNat (n / 10)) = 0 := by rw [front]; rfl
        rw [toNat_ofNat] at zero
        omega

theorem ofNat_length_le_iff (n width : Nat) (positive : 0 < width) :
    (ofNat n).length ≤ width ↔ n < 10 ^ width := by
  induction n using Nat.strongRecOn generalizing width with
  | _ n ih =>
      obtain ⟨width, rfl⟩ : ∃ less, width = less + 1 := ⟨width - 1, by omega⟩
      rw [ofNat_eq]
      by_cases small : n < 10
      · simp only [small, if_true, List.length_singleton, Nat.le_add_left, true_iff]
        calc n < 10 := small
          _ ≤ 10 ^ (width + 1) := Nat.le_self_pow (by omega) 10
      · rw [if_neg small, List.length_append, List.length_singleton, Nat.add_le_add_iff_right]
        cases width with
        | zero =>
            have nonempty := List.length_pos_iff.mpr (ofNat_ne_nil (n / 10))
            simp only [Nat.zero_add, pow_one]
            omega
        | succ width =>
            rw [ih (n / 10) (by omega) (width + 1) (by omega),
              Nat.div_lt_iff_lt_mul (by decide), ← Nat.pow_succ]

/-! ### Numbers of a width -/

theorem padded_length (width n : Nat) (positive : 0 < width) (fits : n < 10 ^ width) :
    (padded width n).length = width := by
  have short := (ofNat_length_le_iff n width positive).mpr fits
  unfold padded
  simp only [List.length_append, List.length_replicate]
  omega

theorem le_padded_length (width n : Nat) : width ≤ (padded width n).length := by
  unfold padded
  rw [List.length_append, List.length_replicate]
  omega

theorem padded_ne_nil (width n : Nat) (positive : 0 < width) : padded width n ≠ [] :=
  List.ne_nil_of_length_pos (Nat.lt_of_lt_of_le positive (le_padded_length width n))

theorem padded_isDigit (width n : Nat) : ∀ c ∈ padded width n, isDigit c = true := by
  intro c member
  rcases List.mem_append.mp member with zero | digit
  · rw [List.eq_of_mem_replicate zero]
    decide
  · exact ofNat_isDigit n c digit

theorem toNat_padded (width n : Nat) : toNat (padded width n) = n := by
  unfold padded
  rw [toNat_zeros, toNat_ofNat]

/-- Digit texts of one length are told apart by the numbers they write, and ordered by them. -/
theorem lt_iff_of_digits {a b : List Char} (aDigits : ∀ c ∈ a, isDigit c = true)
    (bDigits : ∀ c ∈ b, isDigit c = true) (lengths : a.length = b.length) :
    (a < b ↔ toNat a < toNat b) ∧ (a = b ↔ toNat a = toNat b) := by
  induction a generalizing b with
  | nil =>
      have empty : b = [] := List.length_eq_zero_iff.mp lengths.symm
      simp [empty]
  | cons c as ih =>
      cases b with
      | nil => cases lengths
      | cons d bs =>
          have rest := Nat.succ.inj lengths
          obtain ⟨order, equal⟩ :=
            ih (fun x member => aDigits x (List.mem_cons_of_mem _ member))
              (fun x member => bDigits x (List.mem_cons_of_mem _ member)) rest
          have value (x : Char) (digit : isDigit x = true) :
              value? x = some (x.toNat - 48) ∧ 48 ≤ x.toNat ∧ x.toNat ≤ 57 := by
            have bounds := (isDigit_iff x).mp digit
            exact ⟨if_pos bounds, bounds⟩
          obtain ⟨cValue, cLow, cHigh⟩ := value c (aDigits c List.mem_cons_self)
          obtain ⟨dValue, dLow, dHigh⟩ := value d (bDigits d List.mem_cons_self)
          have first : c < d ↔ c.toNat < d.toNat := Iff.rfl
          have same : c = d ↔ c.toNat = d.toNat :=
            ⟨fun equals => by rw [equals], fun codes => Char.ext (UInt32.toNat_inj.mp codes)⟩
          have aBound := toNat_lt as
          have bBound := toNat_lt bs
          rw [rest] at aBound
          rw [List.cons_lt_cons_iff, List.cons.injEq, order, equal, first, same, toNat_cons,
            toNat_cons, cValue, dValue, rest]
          simp only [Option.getD_some]
          obtain ⟨u, hu⟩ : ∃ u, c.toNat = 48 + u := ⟨c.toNat - 48, by omega⟩
          obtain ⟨v, hv⟩ : ∃ v, d.toNat = 48 + v := ⟨d.toNat - 48, by omega⟩
          rw [hu, hv]
          generalize 10 ^ bs.length = unit at *
          rcases Nat.lt_trichotomy u v with less | rfl | more
          · have far : (u + 1) * unit ≤ v * unit := Nat.mul_le_mul_right unit less
            rw [Nat.add_mul, Nat.one_mul] at far
            simp only [Nat.add_sub_cancel_left]
            omega
          · simp only [Nat.lt_irrefl, false_or, true_and, Nat.add_lt_add_iff_left,
              Nat.add_left_cancel_iff, and_self]
          · have far : (v + 1) * unit ≤ u * unit := Nat.mul_le_mul_right unit more
            rw [Nat.add_mul, Nat.one_mul] at far
            simp only [Nat.add_sub_cancel_left]
            omega

theorem padded_lt_iff {width n m : Nat} (positive : 0 < width) (nFits : n < 10 ^ width)
    (mFits : m < 10 ^ width) : padded width n < padded width m ↔ n < m := by
  have lengths : (padded width n).length = (padded width m).length := by
    rw [padded_length width n positive nFits, padded_length width m positive mFits]
  rw [(lt_iff_of_digits (padded_isDigit _ _) (padded_isDigit _ _) lengths).1, toNat_padded,
    toNat_padded]

theorem padded_inj (width : Nat) {n m : Nat} : padded width n = padded width m ↔ n = m := by
  constructor
  · intro same
    rw [← toNat_padded width n, same, toNat_padded]
  · exact congrArg _

/-! ### Reading a number of a width -/

theorem takeWhile_isDigit {digits : List Char} (all : ∀ c ∈ digits, isDigit c = true)
    (rest : List Char) (stops : ∀ c, rest.head? = some c → isDigit c = false) :
    (digits ++ rest).takeWhile isDigit = digits ∧ (digits ++ rest).dropWhile isDigit = rest := by
  rw [List.takeWhile_append_of_pos all, List.dropWhile_append_of_pos all]
  cases rest with
  | nil => simp
  | cons c more =>
      have stop := stops c rfl
      simp [stop]

/-- As many digits as there may be are read, if no further one follows. -/
theorem digits_append {least most : Nat} {digits : List Char}
    (all : ∀ c ∈ digits, isDigit c = true) (enough : least ≤ digits.length)
    (fits : digits.length ≤ most) {rest : List Char}
    (stops : digits.length < most → ∀ c, rest.head? = some c → isDigit c = false) :
    Reader.digits least most (digits ++ rest) = some (digits, rest) := by
  have cut : (digits ++ rest).take most = digits ++ rest.take (most - digits.length) := by
    rw [List.take_append, List.take_of_length_le fits]
  have stopsCut : ∀ c, (rest.take (most - digits.length)).head? = some c →
      isDigit c = false := by
    intro c first
    rw [List.head?_take] at first
    split at first
    · cases first
    · exact stops (by omega) c first
  obtain ⟨taken, -⟩ := takeWhile_isDigit all _ stopsCut
  unfold Reader.digits
  simp only [cut, taken, enough, if_true, List.drop_left]

theorem number_digits {least most : Nat} {digits : List Char}
    (all : ∀ c ∈ digits, isDigit c = true) (enough : least ≤ digits.length)
    (fits : digits.length ≤ most) {rest : List Char}
    (stops : digits.length < most → ∀ c, rest.head? = some c → isDigit c = false) :
    Reader.number least most (digits ++ rest) = some (toNat digits, rest) := by
  rw [Reader.number, digits_append all enough fits stops, Option.map_some]

theorem number_padded (width n : Nat) (rest : List Char) (positive : 0 < width)
    (fits : n < 10 ^ width) :
    Reader.number width width (padded width n ++ rest) = some (n, rest) := by
  have length := padded_length width n positive fits
  rw [number_digits (padded_isDigit width n) (by omega) (by omega) (fun short => by omega),
    toNat_padded]

end RolloutWatch.Digits

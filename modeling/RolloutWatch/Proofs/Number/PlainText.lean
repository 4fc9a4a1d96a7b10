import RolloutWatch.Proofs.Number.Digits
import RolloutWatch.Proofs.Number.Shortest

/-!
The plain text of a number is read back as the number, with all NaNs taken for one. The text
writes the shortest decimal digit by digit, the reader takes the digits for that decimal again,
and the decimal is rounded to the number.
-/

namespace RolloutWatch.Binary64

/-- The number without what no comparison sees of it: there is one NaN. -/
def settled (x : Binary64) : Binary64 :=
  if x.isNaN then nan else x

theorem settled_of_not_isNaN {x : Binary64} (number : x.isNaN = false) : x.settled = x := by
  unfold settled
  rw [number]
  rfl

theorem isNaN_of_finite {x : Binary64} (finite : x.isFinite = true) : x.isNaN = false := by
  have below : x.magnitude < infiniteMagnitude := of_decide_eq_true finite
  exact decide_eq_false (Nat.not_lt.mpr (Nat.le_of_lt below))

/-! ### Decimals near a number -/

private theorem powers_of_ten : 2 * 2 ^ 1074 < 10 ^ 400 ∧ 2 * 2 ^ 1024 < 10 ^ 400 := by
  decide +kernel

theorem near_bounds {x : Binary64} (finite : x.isFinite = true) (nonzero : x.magnitude ≠ 0)
    {q : ℚ} (near : (neighbourhood x.scaled).Holds q) :
    (10 : ℚ) ^ (-400 : ℤ) < q ∧ q < 10 ^ (400 : ℤ) := by
  have positive := scaled_significand_pos nonzero
  have one : (1 : ℚ) ≤ x.scaled.significand := by exact_mod_cast Nat.succ_le_of_lt positive
  have unit : (0 : ℚ) < 2 ^ x.scaled.exponent := by positivity
  obtain ⟨low, high, -, -⟩ := neighbourhood_bounds positive near
  obtain ⟨least, greatest⟩ := value_bounds finite nonzero
  unfold Scaled.value at least greatest
  have small : (10 : ℚ) ^ (-400 : ℤ) < 1 / 2 * 2 ^ (-1074 : ℤ) := by
    have power : (2 : ℚ) * 2 ^ 1074 < 10 ^ 400 := by exact_mod_cast powers_of_ten.1
    rw [zpow_neg, zpow_neg, zpow_ofNat, zpow_ofNat, one_div, ← mul_inv]
    exact inv_strictAnti₀ (by positivity) power
  have great : (2 : ℚ) * 2 ^ (1024 : ℤ) < 10 ^ (400 : ℤ) := by
    rw [zpow_ofNat, zpow_ofNat]
    exact_mod_cast powers_of_ten.2
  constructor
  · calc (10 : ℚ) ^ (-400 : ℤ) < 1 / 2 * 2 ^ (-1074 : ℤ) := small
      _ ≤ 1 / 2 * (x.scaled.significand * 2 ^ x.scaled.exponent) := by linarith
      _ ≤ (x.scaled.significand - 1 / 2) * 2 ^ x.scaled.exponent := by nlinarith
      _ ≤ q := low
  · calc q ≤ (x.scaled.significand + 1 / 2) * 2 ^ x.scaled.exponent := high
      _ ≤ 2 * (x.scaled.significand * 2 ^ x.scaled.exponent) := by nlinarith
      _ < 2 * 2 ^ (1024 : ℤ) := by linarith
      _ < 10 ^ (400 : ℤ) := great

theorem ofRatio_of_near {x : Binary64} (finite : x.isFinite = true) (nonzero : x.magnitude ≠ 0)
    {n d : ℕ} (nPos : n ≠ 0) (dPos : d ≠ 0)
    (near : (neighbourhood x.scaled).Holds ((n : ℚ) / d)) : ofRatio x.isNegative n d = x := by
  unfold ofRatio
  rw [if_neg nPos, magnitudeOfRatio_of_mem finite nonzero nPos dPos near,
    ofMagnitude_magnitude]

theorem toNat_dropWhile_zero (digits : List Char) :
    Digits.toNat (digits.dropWhile (· = '0')) = Digits.toNat digits := by
  induction digits with
  | nil => rfl
  | cons c rest ih =>
      by_cases zero : c = '0'
      · subst zero
        have skipped := Digits.toNat_zeros 1 rest
        rw [List.replicate_one, List.singleton_append] at skipped
        rw [List.dropWhile_cons_of_pos (by decide), ih, skipped]
      · rw [List.dropWhile_cons_of_neg (by simpa using zero)]

/-- Without zeros in front, the count of digits is the order of the number that they write. -/
theorem toNat_ge_of_dropWhile {digits : List Char}
    (all : ∀ c ∈ digits, Digits.isDigit c = true)
    (nonzero : Digits.toNat digits ≠ 0) :
    10 ^ (digits.dropWhile (· = '0')).length ≤ 10 * Digits.toNat digits := by
  rw [← toNat_dropWhile_zero] at nonzero ⊢
  cases stripped : digits.dropWhile (· = '0') with
  | nil =>
      rw [stripped] at nonzero
      exact absurd rfl nonzero
  | cons c rest =>
      have front : c ≠ '0' := by
        have head := List.head?_dropWhile_not (p := fun c : Char => decide (c = '0')) digits
        rw [stripped] at head
        simpa using head
      have digit : Digits.isDigit c = true := by
        apply all
        apply (List.dropWhile_sublist _).subset
        rw [stripped]
        exact List.mem_cons_self
      obtain ⟨low, high⟩ := (Digits.isDigit_iff c).mp digit
      have value : Digits.value? c = some (c.toNat - 48) := if_pos ⟨low, high⟩
      have code : c.toNat ≠ 48 := fun same => front (Char.ext (UInt32.toNat_inj.mp same))
      rw [Digits.toNat_cons, value, Option.getD_some, List.length_cons, Nat.pow_succ]
      have one : 1 ≤ c.toNat - 48 := by omega
      have product := Nat.mul_le_mul_right (10 ^ rest.length) one
      omega

/-- Digits and an exponent that write a decimal near a number are read as the number. -/
theorem ofDecimal_of_near {x : Binary64} (finite : x.isFinite = true) (nonzero : x.magnitude ≠ 0)
    {digits : List Char} (all : ∀ c ∈ digits, Digits.isDigit c = true) {exponent : ℤ}
    (near : (neighbourhood x.scaled).Holds ((Digits.toNat digits : ℚ) * 10 ^ exponent)) :
    ofDecimal x.isNegative digits exponent = x := by
  obtain ⟨low, high⟩ := near_bounds finite nonzero near
  have ten : (10 : ℚ) ≠ 0 := by norm_num
  have unit : (0 : ℚ) < 10 ^ exponent := by positivity
  have coefficient : Digits.toNat digits ≠ 0 := by
    intro zero
    rw [zero, Nat.cast_zero, zero_mul] at low
    have : (0 : ℚ) < 10 ^ (-400 : ℤ) := by positivity
    linarith
  have most : (Digits.toNat digits : ℚ) < 10 ^ ((digits.dropWhile (· = '0')).length : ℤ) := by
    rw [← toNat_dropWhile_zero, zpow_natCast]
    exact_mod_cast Digits.toNat_lt _
  have least : (10 : ℚ) ^ ((digits.dropWhile (· = '0')).length : ℤ) ≤
      10 * Digits.toNat digits := by
    rw [zpow_natCast]
    exact_mod_cast toNat_ge_of_dropWhile all coefficient
  have orderLow : -400 < exponent + ((digits.dropWhile (· = '0')).length : ℤ) := by
    apply (zpow_lt_zpow_iff_right₀ (by norm_num : (1 : ℚ) < 10)).mp
    rw [zpow_add₀ ten]
    nlinarith
  have orderHigh : exponent + ((digits.dropWhile (· = '0')).length : ℤ) < 401 := by
    apply (zpow_lt_zpow_iff_right₀ (by norm_num : (1 : ℚ) < 10)).mp
    have step : (10 : ℚ) ^ (400 + 1 : ℤ) = 10 ^ (400 : ℤ) * 10 := zpow_add_one₀ ten 400
    rw [zpow_add₀ ten]
    calc (10 : ℚ) ^ exponent * 10 ^ ((digits.dropWhile (· = '0')).length : ℤ)
        ≤ 10 ^ exponent * (10 * Digits.toNat digits) := mul_le_mul_of_nonneg_left least unit.le
      _ = Digits.toNat digits * 10 ^ exponent * 10 := by ring
      _ < 10 ^ (400 : ℤ) * 10 := mul_lt_mul_of_pos_right high (by norm_num)
      _ = 10 ^ (401 : ℤ) := step.symm
  have value := toNat_dropWhile_zero digits
  unfold ofDecimal
  simp only [value]
  rw [if_neg (by omega), if_neg (by omega)]
  split
  · obtain ⟨k, rfl⟩ : ∃ k : ℕ, exponent = -k := ⟨(-exponent).toNat, by omega⟩
    rw [Int.neg_neg, Int.toNat_natCast, Nat.pow_eq]
    apply ofRatio_of_near finite nonzero coefficient (by positivity)
    rw [zpow_neg, zpow_natCast, ← div_eq_mul_inv] at near
    exact_mod_cast near
  · obtain ⟨k, rfl⟩ : ∃ k : ℕ, exponent = k := ⟨exponent.toNat, by omega⟩
    rw [Int.toNat_natCast, Nat.pow_eq]
    apply ofRatio_of_near finite nonzero (by positivity) Nat.one_ne_zero
    rw [zpow_natCast] at near
    rw [Nat.cast_one, div_one]
    exact_mod_cast near

/-! ### Numerals -/

theorem lower_digit {c : Char} (digit : Digits.isDigit c = true) : lower c = c := by
  have bounds := (Digits.isDigit_iff c).mp digit
  unfold lower
  apply if_neg
  rintro ⟨low, -⟩
  have code : 65 ≤ c.toNat := low
  omega

/-- A text of digits, with more digits after a point, and the number that they write. -/
structure WrittenWith (whole places text : List Char) (q : ℚ) : Prop where
  nonempty : whole ≠ []
  wholeDigits : ∀ c ∈ whole, Digits.isDigit c = true
  placesDigits : ∀ c ∈ places, Digits.isDigit c = true
  text_eq : text = whole ++ if places = [] then [] else '.' :: places
  value : (Digits.toNat (whole ++ places) : ℚ) * 10 ^ (-(places.length : ℤ)) = q

theorem WrittenWith.unsigned {whole places text : List Char} {q : ℚ}
    (written : WrittenWith whole places text q) (negative : Bool) :
    unsigned? negative text =
      some (ofDecimal negative (whole ++ places) (-(places.length : ℤ))) := by
  obtain ⟨nonempty, wholeDigits, placesDigits, rfl, -⟩ := written
  obtain ⟨c, rest, rfl⟩ := List.exists_cons_of_ne_nil nonempty
  have first := wholeDigits c List.mem_cons_self
  have noWord (word : List Char) (letter : word.head?.map Digits.isDigit = some false) :
      ((c :: rest) ++ if places = [] then [] else '.' :: places).map lower ≠ word := by
    rintro rfl
    simp only [List.cons_append, List.map_cons, List.head?_cons, Option.map_some,
      lower_digit first, first] at letter
    cases letter
  have point : Digits.isDigit '.' = false := by decide
  unfold unsigned?
  simp only [noWord "inf".toList rfl, noWord "infinity".toList rfl, noWord "nan".toList rfl,
    or_self, if_false]
  by_cases empty : places = []
  · subst empty
    obtain ⟨taken, left⟩ := Digits.takeWhile_isDigit wholeDigits []
      (fun _ found => by cases found)
    simp only [if_true, taken, left]
    simp
  · obtain ⟨taken, left⟩ := Digits.takeWhile_isDigit wholeDigits ('.' :: places)
      (fun d found => by
        cases found
        exact point)
    obtain ⟨takenPlaces, leftPlaces⟩ := Digits.takeWhile_isDigit placesDigits []
      (fun _ found => by cases found)
    rw [List.append_nil] at takenPlaces leftPlaces
    simp only [empty, if_false, taken, left, takenPlaces, leftPlaces]
    simp

theorem zeros_isDigit (count : ℕ) : ∀ c ∈ List.replicate count '0', Digits.isDigit c = true := by
  intro c member
  rw [List.eq_of_mem_replicate member]
  decide

theorem written_whole (n k : ℕ) :
    WrittenWith (Digits.ofNat n ++ List.replicate k '0') []
      (Digits.ofNat n ++ List.replicate k '0') (n * 10 ^ (k : ℤ)) := by
  have nonempty := Digits.ofNat_ne_nil n
  have zeros := Digits.toNat_zeros k []
  rw [List.append_nil] at zeros
  refine { nonempty := by simp [nonempty], wholeDigits := ?_, placesDigits := by simp,
           text_eq := by simp, value := ?_ }
  · intro c member
    rcases List.mem_append.mp member with digit | zero
    · exact Digits.ofNat_isDigit n c digit
    · exact zeros_isDigit k c zero
  · rw [List.append_nil, Digits.toNat_append, zeros, Digits.toNat_ofNat, List.length_replicate]
    simp [Digits.toNat]

theorem written_inside {n k : ℕ} (places : 0 < k) (inside : k < (Digits.ofNat n).length) :
    WrittenWith ((Digits.ofNat n).take ((Digits.ofNat n).length - k))
      ((Digits.ofNat n).drop ((Digits.ofNat n).length - k))
      ((Digits.ofNat n).take ((Digits.ofNat n).length - k) ++
        '.' :: (Digits.ofNat n).drop ((Digits.ofNat n).length - k))
      (n * 10 ^ (-(k : ℤ))) := by
  have digits := Digits.ofNat_isDigit n
  have front : ((Digits.ofNat n).take ((Digits.ofNat n).length - k)).length ≠ 0 := by
    rw [List.length_take]
    omega
  have back : ((Digits.ofNat n).drop ((Digits.ofNat n).length - k)).length = k := by
    rw [List.length_drop]
    omega
  have present : (Digits.ofNat n).drop ((Digits.ofNat n).length - k) ≠ [] := by
    intro empty
    rw [empty, List.length_nil] at back
    omega
  refine { nonempty := fun empty => front (congrArg List.length empty)
           wholeDigits := fun c member => digits c (List.mem_of_mem_take member)
           placesDigits := fun c member => digits c (List.mem_of_mem_drop member)
           text_eq := by rw [if_neg present], value := ?_ }
  rw [List.take_append_drop, Digits.toNat_ofNat, back]

theorem written_below_one {n k : ℕ} (outside : (Digits.ofNat n).length ≤ k) :
    WrittenWith ['0'] (List.replicate (k - (Digits.ofNat n).length) '0' ++ Digits.ofNat n)
      ('0' :: '.' :: (List.replicate (k - (Digits.ofNat n).length) '0' ++ Digits.ofNat n))
      (n * 10 ^ (-(k : ℤ))) := by
  have nonempty := Digits.ofNat_ne_nil n
  have length : (List.replicate (k - (Digits.ofNat n).length) '0' ++
      Digits.ofNat n).length = k := by
    rw [List.length_append, List.length_replicate]
    omega
  have front := Digits.toNat_zeros 1
    (List.replicate (k - (Digits.ofNat n).length) '0' ++ Digits.ofNat n)
  rw [List.replicate_one] at front
  refine { nonempty := by simp, wholeDigits := List.forall_mem_singleton.mpr rfl,
           placesDigits := ?_, text_eq := by simp [nonempty], value := ?_ }
  · intro c member
    rcases List.mem_append.mp member with zero | digit
    · exact zeros_isDigit _ c zero
    · exact Digits.ofNat_isDigit n c digit
  · rw [front, Digits.toNat_zeros, Digits.toNat_ofNat, length]

/-- A positional text consists of the digits of its decimal with a point among them. -/
theorem positional_written (d : RolloutWatch.Decimal) (nonzero : d.coefficient ≠ 0) :
    ∃ whole places, WrittenWith whole places (positional [] d) d.value := by
  unfold positional RolloutWatch.Decimal.value
  simp only [nonzero, if_false, List.append_nil]
  split
  · obtain ⟨k, exponent⟩ : ∃ k : ℕ, d.exponent = k := ⟨d.exponent.toNat, by omega⟩
    rw [exponent, Int.toNat_natCast]
    exact ⟨_, _, written_whole d.coefficient k⟩
  · obtain ⟨k, exponent⟩ : ∃ k : ℕ, d.exponent = -k := ⟨(-d.exponent).toNat, by omega⟩
    rw [exponent, Int.neg_neg, Int.toNat_natCast]
    split
    · rename_i inside
      exact ⟨_, _, written_inside (by omega) inside⟩
    · rename_i outside
      exact ⟨_, _, written_below_one (Nat.not_lt.mp outside)⟩

/-! ### Numbers -/

private theorem unsigned_finite {x : Binary64} (finite : x.isFinite = true) :
    (∃ c rest, positional [] (shortest .upward x) = c :: rest ∧ Digits.isDigit c = true) ∧
      unsigned? x.isNegative (positional [] (shortest .upward x)) = some x := by
  by_cases zero : x.magnitude = 0
  · have significand : x.scaled = { significand := 0, exponent := -1074 } := by
      unfold scaled
      rw [zero]
      rfl
    have decimal : shortest .upward x = { coefficient := 0, exponent := 0 } := by
      rw [shortest_eq]
      apply if_pos
      unfold ratio
      rw [significand]
      rfl
    have sign := ofMagnitude_magnitude x
    rw [zero] at sign
    rw [decimal]
    refine ⟨⟨'0', [], by decide, by decide⟩, ?_⟩
    have read : unsigned? x.isNegative ['0'] = some (ofDecimal x.isNegative ['0'] 0) :=
      (written_whole 0 0).unsigned x.isNegative
    have value : ofDecimal x.isNegative ['0'] 0 = ofMagnitude x.isNegative 0 := rfl
    exact read.trans (congrArg some (value.trans sign))
  · obtain ⟨coefficient, near⟩ := shortest_near .upward finite zero
    obtain ⟨whole, places, written⟩ := positional_written (shortest .upward x) coefficient
    rw [← written.value] at near
    constructor
    · obtain ⟨c, rest, split⟩ := List.exists_cons_of_ne_nil written.nonempty
      refine ⟨c, rest ++ if places = [] then [] else '.' :: places, ?_, ?_⟩
      · rw [written.text_eq, split, List.cons_append]
      · exact written.wholeDigits c (split ▸ List.mem_cons_self)
    · rw [written.unsigned]
      congr 1
      refine ofDecimal_of_near finite zero ?_ near
      intro c member
      rcases List.mem_append.mp member with front | back
      · exact written.wholeDigits c front
      · exact written.placesDigits c back

theorem ofText_unsigned {c : Char} {rest : List Char} (plus : c ≠ '+') (minus : c ≠ '-') :
    ofText? (c :: rest) = unsigned? false (c :: rest) := by
  unfold ofText?
  split
  · rename_i same
    exact absurd (List.cons.inj same).1 plus
  · rename_i same
    exact absurd (List.cons.inj same).1 minus
  · rfl

/-- What stands behind the sign is a numeral, or a word, for the number without its sign. -/
private theorem unsigned_body {x : Binary64} (number : x.isNaN = false) :
    (∃ c rest, (if x.isInfinite = true then ['i', 'n', 'f']
        else positional [] (shortest .upward x)) = c :: rest ∧ c ≠ '+' ∧ c ≠ '-') ∧
      unsigned? x.isNegative (if x.isInfinite = true then ['i', 'n', 'f']
        else positional [] (shortest .upward x)) = some x := by
  by_cases infinite : x.isInfinite = true
  · have same : infinity x.isNegative = x := by
      have sign := ofMagnitude_magnitude x
      have magnitude : x.magnitude = infiniteMagnitude := of_decide_eq_true infinite
      rw [magnitude] at sign
      exact sign
    have word (negative : Bool) :
        unsigned? negative ['i', 'n', 'f'] = some (infinity negative) := rfl
    rw [if_pos infinite]
    refine ⟨⟨'i', ['n', 'f'], rfl, by decide, by decide⟩, ?_⟩
    rw [word, same]
  · have finite : x.isFinite = true := by
      have notAbove := of_decide_eq_false number
      have notSame := of_decide_eq_false (Bool.not_eq_true _ ▸ infinite)
      exact decide_eq_true (by omega)
    obtain ⟨⟨c, rest, text, digit⟩, read⟩ := unsigned_finite finite
    rw [if_neg infinite]
    refine ⟨⟨c, rest, text, ?_, ?_⟩, read⟩
    · rintro rfl
      exact absurd digit (by decide)
    · rintro rfl
      exact absurd digit (by decide)

theorem ofText_plainText (x : Binary64) : ofText? x.plainText = some x.settled := by
  unfold plainText
  cases number : x.isNaN with
  | true =>
      have settles : x.settled = nan := by
        unfold settled
        rw [number]
        rfl
      rw [settles]
      rfl
  | false =>
      rw [settled_of_not_isNaN number]
      simp only [Bool.false_eq_true, if_false]
      obtain ⟨⟨c, rest, text, plus, minus⟩, read⟩ := unsigned_body number
      rw [text] at read ⊢
      cases sign : x.isNegative with
      | true =>
          rw [sign] at read
          exact read
      | false =>
          rw [sign] at read
          simp only [Bool.false_eq_true, if_false]
          rw [ofText_unsigned plus minus]
          exact read

end RolloutWatch.Binary64

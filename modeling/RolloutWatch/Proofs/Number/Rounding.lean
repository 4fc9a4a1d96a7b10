import RolloutWatch.Number.Shortest
import Mathlib.Algebra.Order.Field.Power
import Mathlib.Data.Rat.Cast.Order
import Mathlib.Tactic.FieldSimp
import Mathlib.Tactic.Linarith
import Mathlib.Tactic.NormNum
import Mathlib.Tactic.Positivity
import Mathlib.Tactic.Ring

/-!
Rounding to the nearest number. Every ratio in the neighbourhood of a finite number is rounded
to its magnitude. A ratio fixes the exponent of its significand, which is the exponent of the
number, or one less just below a power of two.
-/

namespace RolloutWatch.Binary64

theorem hiddenBit_eq : hiddenBit = 2 ^ 52 := rfl

/-! ### Numbers as significands and exponents -/

def Scaled.value (s : Scaled) : ℚ :=
  s.significand * (2 : ℚ) ^ s.exponent

/-- The significand has at most 53 bits, and fewer only at the least exponent. -/
structure Scaled.Normal (s : Scaled) : Prop where
  bits : s.significand < 2 ^ 53
  least : -1074 ≤ s.exponent
  hidden : s.exponent = -1074 ∨ 2 ^ 52 ≤ s.significand

theorem scaled_normal (x : Binary64) : x.scaled.Normal := by
  have fraction : x.magnitude % hiddenBit < 2 ^ 52 := Nat.mod_lt _ (by decide)
  unfold scaled
  generalize x.magnitude % hiddenBit = fraction at *
  generalize x.magnitude / hiddenBit = field
  simp only
  split
  · refine { bits := ?_, least := Int.le_refl _, hidden := .inl rfl }
    simp only
    omega
  · rename_i written
    refine { bits := ?_, least := ?_, hidden := .inr ?_ }
    · simp only [hiddenBit_eq]
      omega
    · simp only
      omega
    · simp only [hiddenBit_eq]
      omega

/-- The magnitude that a significand and an exponent are packed into. -/
def Scaled.packed (s : Scaled) : Nat :=
  if s.significand < hiddenBit then s.significand
  else (s.exponent + 1075).toNat * hiddenBit + (s.significand - hiddenBit)

theorem packed_scaled (x : Binary64) : x.scaled.packed = x.magnitude := by
  have parts := Nat.div_add_mod x.magnitude hiddenBit
  have fraction : x.magnitude % hiddenBit < hiddenBit := Nat.mod_lt _ (by decide)
  unfold Scaled.packed scaled
  generalize x.magnitude % hiddenBit = rest at *
  generalize x.magnitude / hiddenBit = field at *
  simp only
  split
  · rename_i least
    rw [least, Nat.mul_zero, Nat.zero_add] at parts
    exact parts
  · rename_i written
    have shift : ((field : Int) - 1075 + 1075).toNat = field := by omega
    have above : ¬hiddenBit + rest < hiddenBit := by omega
    simp only [above, if_false, shift, Nat.add_sub_cancel_left]
    rw [Nat.mul_comm, parts]

theorem scaled_significand_pos {x : Binary64} (nonzero : x.magnitude ≠ 0) :
    0 < x.scaled.significand := by
  rcases Nat.eq_zero_or_pos x.scaled.significand with zero | positive
  · have packed := packed_scaled x
    unfold Scaled.packed at packed
    rw [zero, if_pos (by decide)] at packed
    exact absurd packed.symm nonzero
  · exact positive

theorem ratio_value (x : Binary64) :
    (x.ratio.1 : ℚ) / x.ratio.2 = x.scaled.value ∧ x.ratio.2 ≠ 0 := by
  unfold ratio Scaled.value
  simp only
  split
  · rename_i negative
    obtain ⟨k, exponent⟩ : ∃ k : ℕ, x.scaled.exponent = -k :=
      ⟨(-x.scaled.exponent).toNat, by omega⟩
    rw [exponent, Int.neg_neg, Int.toNat_natCast]
    refine ⟨?_, Nat.pos_iff_ne_zero.mp (Nat.pow_pos (by decide))⟩
    simp only [Nat.pow_eq, Nat.cast_pow, Nat.cast_ofNat, zpow_neg, zpow_natCast]
    rw [div_eq_mul_inv]
  · rename_i positive
    obtain ⟨k, exponent⟩ : ∃ k : ℕ, x.scaled.exponent = k :=
      ⟨x.scaled.exponent.toNat, by omega⟩
    rw [exponent, Int.toNat_natCast]
    refine ⟨?_, Nat.one_ne_zero⟩
    simp only [Nat.pow_eq, Nat.cast_mul, Nat.cast_pow, Nat.cast_ofNat, Nat.cast_one, div_one,
      zpow_natCast]

/-! ### Neighbourhoods -/

/-- The ratio lies in the neighbourhood, at an end only if the ends belong to it. -/
def Neighbourhood.Holds (near : Neighbourhood) (q : ℚ) : Prop :=
  if near.closed then
    near.low * (2 : ℚ) ^ near.exponent ≤ q ∧ q ≤ near.high * (2 : ℚ) ^ near.exponent
  else near.low * (2 : ℚ) ^ near.exponent < q ∧ q < near.high * (2 : ℚ) ^ near.exponent

theorem two_zpow_sub_two (e : ℤ) : (2 : ℚ) ^ (e - 2) = (2 : ℚ) ^ e / 4 := by
  rw [zpow_sub₀ (by norm_num)]
  norm_num

/-- Half a unit on both sides, the ends for even significands only, and a quarter below a power
of two. -/
theorem neighbourhood_bounds {s : Scaled} {q : ℚ} (positive : 0 < s.significand)
    (near : (neighbourhood s).Holds q) :
    ((s.significand : ℚ) - 1 / 2) * 2 ^ s.exponent ≤ q ∧
      q ≤ ((s.significand : ℚ) + 1 / 2) * 2 ^ s.exponent ∧
      (s.significand % 2 ≠ 0 → ((s.significand : ℚ) - 1 / 2) * 2 ^ s.exponent < q ∧
        q < ((s.significand : ℚ) + 1 / 2) * 2 ^ s.exponent) ∧
      (s.significand = hiddenBit → -1074 < s.exponent →
        ((s.significand : ℚ) - 1 / 4) * 2 ^ s.exponent ≤ q) := by
  have unit : (0 : ℚ) < 2 ^ s.exponent := by positivity
  have low : ((s.significand : ℚ) - 1 / 2) * 2 ^ s.exponent ≤
      (neighbourhood s).low * (2 : ℚ) ^ (neighbourhood s).exponent ∧
      (s.significand = hiddenBit → -1074 < s.exponent →
        ((s.significand : ℚ) - 1 / 4) * 2 ^ s.exponent =
          (neighbourhood s).low * (2 : ℚ) ^ (neighbourhood s).exponent) := by
    unfold neighbourhood
    simp only [two_zpow_sub_two]
    split
    · rw [Nat.cast_sub (by omega)]
      push_cast
      constructor
      · nlinarith
      · intros
        ring
    · rename_i usual
      rw [Nat.cast_sub (by omega)]
      push_cast
      constructor
      · nlinarith
      · exact fun hidden above => absurd ⟨hidden, above⟩ usual
  have high : ((s.significand : ℚ) + 1 / 2) * 2 ^ s.exponent =
      (neighbourhood s).high * (2 : ℚ) ^ (neighbourhood s).exponent := by
    unfold neighbourhood
    simp only [two_zpow_sub_two]
    push_cast
    ring
  unfold Neighbourhood.Holds at near
  rw [← high] at near
  split at near
  · rename_i closed
    have even : s.significand % 2 = 0 := of_decide_eq_true closed
    refine ⟨low.1.trans near.1, near.2, fun odd => absurd even odd, ?_⟩
    intro hidden above
    exact (low.2 hidden above).le.trans near.1
  · refine ⟨low.1.trans near.1.le, near.2.le, ?_, ?_⟩
    · exact fun _ => ⟨low.1.trans_lt near.1, near.2⟩
    · intro hidden above
      exact (low.2 hidden above).le.trans near.1.le

/-! ### The nearest natural number -/

private theorem nearestEven_of_bounds {n d k : ℕ} (positive : 0 < d)
    (low : 2 * k * d ≤ 2 * n + d) (high : 2 * n ≤ 2 * k * d + d)
    (odd : k % 2 ≠ 0 → 2 * k * d < 2 * n + d ∧ 2 * n < 2 * k * d + d) :
    nearestEven n d = k := by
  have parts := Nat.div_add_mod n d
  have small := Nat.mod_lt n positive
  unfold nearestEven
  simp only
  generalize n / d = quotient at *
  generalize n % d = remainder at *
  have least : quotient ≤ k := by
    by_contra less
    have far : (k + 1) * d ≤ quotient * d := Nat.mul_le_mul_right d (by omega)
    nlinarith
  have most : k ≤ quotient + 1 := by
    by_contra more
    have far : (quotient + 2) * d ≤ k * d := Nat.mul_le_mul_right d (by omega)
    nlinarith
  -- The number is the quotient or the next one.
  have near : k = quotient ∨ k = quotient + 1 := by omega
  rcases near with rfl | rfl
  · have product : 2 * k * d = 2 * (d * k) := by ring
    rw [product] at low high odd
    split
    · rfl
    · split
      · omega
      · omega
  · have product : 2 * (quotient + 1) * d = 2 * (d * quotient) + 2 * d := by ring
    rw [product] at low high odd
    split
    · omega
    · split
      · omega
      · rfl

theorem nearestEven_eq {n d k : ℕ} (positive : 0 < d) (low : (k : ℚ) - 1 / 2 ≤ (n : ℚ) / d)
    (high : (n : ℚ) / d ≤ k + 1 / 2)
    (odd : k % 2 ≠ 0 → (k : ℚ) - 1 / 2 < (n : ℚ) / d ∧ (n : ℚ) / d < k + 1 / 2) :
    nearestEven n d = k := by
  have dPos : (0 : ℚ) < d := Nat.cast_pos.mpr positive
  rw [le_div_iff₀ dPos] at low
  rw [div_le_iff₀ dPos] at high
  rw [lt_div_iff₀ dPos, div_lt_iff₀ dPos] at odd
  apply nearestEven_of_bounds positive
  · have cast : ((2 * k * d : ℕ) : ℚ) ≤ ((2 * n + d : ℕ) : ℚ) := by
      push_cast
      linarith
    exact_mod_cast cast
  · have cast : ((2 * n : ℕ) : ℚ) ≤ ((2 * k * d + d : ℕ) : ℚ) := by
      push_cast
      linarith
    exact_mod_cast cast
  · intro isOdd
    obtain ⟨above, below⟩ := odd isOdd
    constructor
    · have cast : ((2 * k * d : ℕ) : ℚ) < ((2 * n + d : ℕ) : ℚ) := by
        push_cast
        linarith
      exact_mod_cast cast
    · have cast : ((2 * n : ℕ) : ℚ) < ((2 * k * d + d : ℕ) : ℚ) := by
        push_cast
        linarith
      exact_mod_cast cast

/-! ### The exponent of a ratio -/

theorem rescale_value (n d : ℕ) (e : ℤ) (positive : 0 < d) :
    0 < (rescale n d e).2 ∧
      ((rescale n d e).1 : ℚ) / (rescale n d e).2 = (n : ℚ) / d / (2 : ℚ) ^ e := by
  have dPos : (d : ℚ) ≠ 0 := Nat.cast_ne_zero.mpr (by omega)
  unfold rescale
  split
  · obtain ⟨k, rfl⟩ : ∃ k : ℕ, e = -k := ⟨(-e).toNat, by omega⟩
    refine ⟨positive, ?_⟩
    simp only [Int.neg_neg, Int.toNat_natCast, Nat.pow_eq, Nat.cast_mul, Nat.cast_pow,
      Nat.cast_ofNat, zpow_neg, zpow_natCast, div_inv_eq_mul]
    ring
  · obtain ⟨k, rfl⟩ : ∃ k : ℕ, e = k := ⟨e.toNat, by omega⟩
    refine ⟨Nat.mul_pos positive (Nat.pow_pos (by decide)), ?_⟩
    simp only [Int.toNat_natCast, Nat.pow_eq, Nat.cast_mul, Nat.cast_pow, Nat.cast_ofNat,
      zpow_natCast]
    rw [div_div]

theorem log2_bounds {n : ℕ} (positive : n ≠ 0) :
    (2 : ℚ) ^ (Nat.log2 n : ℤ) ≤ n ∧ (n : ℚ) < 2 ^ ((Nat.log2 n : ℤ) + 1) := by
  have low := Nat.log2_self_le positive
  have high : n < 2 ^ (Nat.log2 n + 1) := Nat.lt_log2_self
  constructor
  · rw [zpow_natCast]
    exact_mod_cast low
  · have cast : ((Nat.log2 n : ℤ) + 1) = ((Nat.log2 n + 1 : ℕ) : ℤ) := by push_cast; rfl
    rw [cast, zpow_natCast]
    exact_mod_cast high

/-- A ratio lies between the powers of two next to the quotient of its orders. -/
theorem ratio_order {n d : ℕ} (nPos : n ≠ 0) (dPos : d ≠ 0) :
    (2 : ℚ) ^ ((Nat.log2 n : ℤ) - Nat.log2 d - 1) < (n : ℚ) / d ∧
      (n : ℚ) / d < 2 ^ ((Nat.log2 n : ℤ) - Nat.log2 d + 1) := by
  obtain ⟨nLow, nHigh⟩ := log2_bounds nPos
  obtain ⟨dLow, dHigh⟩ := log2_bounds dPos
  have dCast : (0 : ℚ) < d := Nat.cast_pos.mpr (by omega)
  have two : (2 : ℚ) ≠ 0 := by norm_num
  constructor
  · rw [lt_div_iff₀ dCast]
    calc (2 : ℚ) ^ ((Nat.log2 n : ℤ) - Nat.log2 d - 1) * d
        < 2 ^ ((Nat.log2 n : ℤ) - Nat.log2 d - 1) * 2 ^ ((Nat.log2 d : ℤ) + 1) :=
          mul_lt_mul_of_pos_left dHigh (by positivity)
      _ = 2 ^ (Nat.log2 n : ℤ) := by
          rw [← zpow_add₀ two]
          congr 1
          ring
      _ ≤ n := nLow
  · rw [div_lt_iff₀ dCast]
    calc (n : ℚ) < 2 ^ ((Nat.log2 n : ℤ) + 1) := nHigh
      _ = 2 ^ ((Nat.log2 n : ℤ) - Nat.log2 d + 1) * 2 ^ (Nat.log2 d : ℤ) := by
          rw [← zpow_add₀ two]
          congr 1
          ring
      _ ≤ 2 ^ ((Nat.log2 n : ℤ) - Nat.log2 d + 1) * d :=
          mul_le_mul_of_nonneg_left dLow (by positivity)

def roundingExponent (n d : ℕ) : ℤ :=
  let start : Int := max ((Nat.log2 n : Int) - (Nat.log2 d : Int) - 53) (-1074)
  if (rescale n d start).1 / (rescale n d start).2 < 2 * hiddenBit then start else start + 1

theorem magnitudeOfRatio_eq (n d : ℕ) :
    magnitudeOfRatio n d =
      min infiniteMagnitude
        (Scaled.packed
          { significand :=
              nearestEven (rescale n d (roundingExponent n d)).1
                (rescale n d (roundingExponent n d)).2
            exponent := roundingExponent n d }) :=
  rfl

/-- With this exponent a ratio has 53 bits before the point, or fewer at the least exponent. -/
def FitsExponent (q : ℚ) (e : ℤ) : Prop :=
  -1074 ≤ e ∧ q < 2 ^ (e + 53) ∧ (e = -1074 ∨ (2 : ℚ) ^ (e + 52) ≤ q)

theorem FitsExponent.unique {q : ℚ} {e f : ℤ} (first : FitsExponent q e)
    (second : FitsExponent q f) : e = f := by
  have notLess {a b : ℤ} (fitsA : FitsExponent q a) (fitsB : FitsExponent q b) : ¬a < b := by
    intro less
    rcases fitsB.2.2 with least | above
    · have := fitsA.1
      omega
    · have step : (2 : ℚ) ^ (a + 53) ≤ 2 ^ (b + 52) :=
        zpow_le_zpow_right₀ (by norm_num) (by omega)
      linarith [fitsA.2.1]
  have := notLess first second
  have := notLess second first
  omega

theorem roundingExponent_fits {n d : ℕ} (nPos : n ≠ 0) (dPos : d ≠ 0) :
    FitsExponent ((n : ℚ) / d) (roundingExponent n d) := by
  obtain ⟨low, high⟩ := ratio_order nPos dPos
  unfold roundingExponent
  simp only
  generalize start_eq : max ((Nat.log2 n : Int) - (Nat.log2 d : Int) - 53) (-1074) = start
  obtain ⟨denPos, scaledRatio⟩ := rescale_value n d start (Nat.pos_of_ne_zero dPos)
  have denCast : (0 : ℚ) < (rescale n d start).2 := Nat.cast_pos.mpr denPos
  have unit : (0 : ℚ) < 2 ^ start := by positivity
  have whole : ((rescale n d start).1 / (rescale n d start).2 < 2 * hiddenBit) ↔
      (n : ℚ) / d < 2 ^ (start + 53) := by
    have power : ((2 * hiddenBit : ℕ) : ℚ) = 2 ^ (53 : ℤ) := by
      rw [hiddenBit_eq]
      norm_num
    rw [Nat.div_lt_iff_lt_mul denPos, add_comm, zpow_add₀ (by norm_num), ← power,
      ← div_lt_iff₀ unit, ← scaledRatio, div_lt_iff₀ denCast]
    exact_mod_cast Iff.rfl
  split
  · rename_i fits
    refine ⟨by omega, whole.mp fits, ?_⟩
    rcases le_or_gt start (-1074) with least | above
    · exact .inl (by omega)
    · have exponent : start + 52 = (Nat.log2 n : ℤ) - Nat.log2 d - 1 := by omega
      rw [exponent]
      exact .inr low.le
  · rename_i exceeds
    have above := not_lt.mp (whole.not.mp exceeds)
    refine ⟨by omega, high.trans_le ?_, .inr ?_⟩
    · exact zpow_le_zpow_right₀ (by norm_num) (by omega)
    · have exponent : start + 1 + 52 = start + 53 := by ring
      rw [exponent]
      exact above

/-! ### Rounding -/

private theorem packed_carry {e : ℤ} (least : -1074 ≤ e) :
    Scaled.packed { significand := 2 ^ 53, exponent := e } =
      Scaled.packed { significand := hiddenBit, exponent := e + 1 } := by
  obtain ⟨k, rfl⟩ : ∃ k : ℕ, e = k - 1074 := ⟨(e + 1074).toNat, by omega⟩
  have first : ((k : ℤ) - 1074 + 1075).toNat = k + 1 := by omega
  have second : ((k : ℤ) - 1074 + 1 + 1075).toNat = k + 2 := by omega
  unfold Scaled.packed
  simp only [hiddenBit_eq, first, second]
  norm_num
  omega

private theorem two_zpow_add (e : ℤ) (count : ℕ) :
    (2 : ℚ) ^ (e + count) = 2 ^ count * 2 ^ e := by
  rw [zpow_add₀ (by norm_num), zpow_natCast, mul_comm]

/-- A ratio is rounded to the nearest significand at the exponent that fits it. -/
theorem magnitudeOfRatio_of_fits {n d k : ℕ} {e : ℤ} (nPos : n ≠ 0) (dPos : d ≠ 0)
    (fits : FitsExponent ((n : ℚ) / d) e) (low : ((k : ℚ) - 1 / 2) * 2 ^ e ≤ (n : ℚ) / d)
    (high : (n : ℚ) / d ≤ (k + 1 / 2) * 2 ^ e)
    (odd : k % 2 ≠ 0 →
      ((k : ℚ) - 1 / 2) * 2 ^ e < (n : ℚ) / d ∧ (n : ℚ) / d < (k + 1 / 2) * 2 ^ e) :
    magnitudeOfRatio n d =
      min infiniteMagnitude (Scaled.packed { significand := k, exponent := e }) := by
  have unit : (0 : ℚ) < 2 ^ e := by positivity
  have exponent : roundingExponent n d = e := (roundingExponent_fits nPos dPos).unique fits
  obtain ⟨denPos, ratio⟩ := rescale_value n d e (Nat.pos_of_ne_zero dPos)
  have nearest : nearestEven (rescale n d e).1 (rescale n d e).2 = k := by
    apply nearestEven_eq denPos
    · rw [ratio, le_div_iff₀ unit]
      exact low
    · rw [ratio, div_le_iff₀ unit]
      exact high
    · intro isOdd
      rw [ratio, lt_div_iff₀ unit, div_lt_iff₀ unit]
      exact odd isOdd
  rw [magnitudeOfRatio_eq, exponent, nearest]

/-- Only a power of two has a ratio with the next exponent in its neighbourhood. -/
theorem Scaled.Normal.hidden_of_below {s : Scaled} (normal : s.Normal) {q : ℚ}
    (notLeast : s.exponent ≠ -1074) (low : ((s.significand : ℚ) - 1 / 2) * 2 ^ s.exponent ≤ q)
    (below : q < 2 ^ (s.exponent + 52)) : s.significand = hiddenBit := by
  have unit : (0 : ℚ) < 2 ^ s.exponent := by positivity
  have power : (2 : ℚ) ^ (s.exponent + 52) = 2 ^ 52 * 2 ^ s.exponent := two_zpow_add _ 52
  have most : (s.significand : ℚ) < 2 ^ 52 + 1 := by
    by_contra more
    rw [not_lt] at more
    nlinarith
  have mostNat : s.significand < 2 ^ 52 + 1 := by exact_mod_cast most
  have least := normal.hidden.resolve_left notLeast
  rw [hiddenBit_eq]
  omega

/-- Just below a power of two the units are half as large, and a quarter of the power's unit is
half of these: a ratio within it is rounded up to the power. -/
theorem magnitudeOfRatio_below_power {e : ℤ} (least : -1074 < e) {n d : ℕ} (nPos : n ≠ 0)
    (dPos : d ≠ 0) (low : ((2 : ℚ) ^ 52 - 1 / 4) * 2 ^ e ≤ (n : ℚ) / d)
    (below : (n : ℚ) / d < 2 ^ (e + 52)) :
    magnitudeOfRatio n d =
      min infiniteMagnitude (Scaled.packed { significand := hiddenBit, exponent := e }) := by
  have unit : (0 : ℚ) < 2 ^ (e - 1) := by positivity
  have double : (2 : ℚ) ^ e = 2 * 2 ^ (e - 1) := by
    have step := two_zpow_add (e - 1) 1
    rw [Nat.cast_one, sub_add_cancel, pow_one] at step
    exact step
  have power : (2 : ℚ) ^ (e + 52) = 2 ^ 52 * 2 ^ e := two_zpow_add e 52
  have fits : FitsExponent ((n : ℚ) / d) (e - 1) := by
    refine ⟨by omega, ?_, .inr ?_⟩
    · have shifted : e - 1 + 53 = e + 52 := by ring
      rw [shifted]
      exact below
    · have shifted : (2 : ℚ) ^ (e - 1 + 52) = 2 ^ 52 * 2 ^ (e - 1) := two_zpow_add (e - 1) 52
      rw [shifted]
      rw [double] at low
      nlinarith
  have rounded := magnitudeOfRatio_of_fits (k := 2 ^ 53) nPos dPos fits
    (by push_cast; rw [double] at low; nlinarith)
    (by push_cast; rw [power, double] at below; nlinarith)
    (fun isOdd => absurd (by decide) isOdd)
  rw [rounded, packed_carry (by omega), Int.sub_add_cancel]

/-- Ratios in the neighbourhood of a number in normal form are rounded to it. -/
theorem magnitudeOfRatio_of_near {s : Scaled} (normal : s.Normal) (positive : 0 < s.significand)
    {n d : ℕ} (nPos : n ≠ 0) (dPos : d ≠ 0) (near : (neighbourhood s).Holds ((n : ℚ) / d)) :
    magnitudeOfRatio n d = min infiniteMagnitude s.packed := by
  obtain ⟨low, high, odd, quarter⟩ := neighbourhood_bounds positive near
  by_cases usual : s.exponent = -1074 ∨ (2 : ℚ) ^ (s.exponent + 52) ≤ (n : ℚ) / d
  · -- The ratio has the exponent of the number.
    have fits : FitsExponent ((n : ℚ) / d) s.exponent := by
      refine ⟨normal.least, ?_, usual⟩
      have unit : (0 : ℚ) < 2 ^ s.exponent := by positivity
      have bits : (s.significand : ℚ) + 1 ≤ 2 ^ 53 := by exact_mod_cast normal.bits
      have power : (2 : ℚ) ^ (s.exponent + 53) = 2 ^ 53 * 2 ^ s.exponent := two_zpow_add _ 53
      rw [power]
      nlinarith
    exact magnitudeOfRatio_of_fits nPos dPos fits low high odd
  · -- The ratio lies just below the power of two that the number is.
    rw [not_or, not_le] at usual
    obtain ⟨notLeast, below⟩ := usual
    have hidden := normal.hidden_of_below notLeast low below
    have least : -1074 < s.exponent := lt_of_le_of_ne normal.least (Ne.symm notLeast)
    have quarterBound := quarter hidden least
    rw [hidden, hiddenBit_eq] at quarterBound
    have rounded := magnitudeOfRatio_below_power least nPos dPos
      (by exact_mod_cast quarterBound) below
    rw [rounded, ← hidden]

theorem magnitudeOfRatio_of_mem {x : Binary64} (finite : x.isFinite = true)
    (nonzero : x.magnitude ≠ 0) {n d : ℕ} (nPos : n ≠ 0) (dPos : d ≠ 0)
    (near : (neighbourhood x.scaled).Holds ((n : ℚ) / d)) :
    magnitudeOfRatio n d = x.magnitude := by
  rw [magnitudeOfRatio_of_near (scaled_normal x) (scaled_significand_pos nonzero) nPos dPos near,
    packed_scaled]
  exact Nat.min_eq_right (Nat.le_of_lt (of_decide_eq_true finite))

/-! ### Signs -/

theorem ofMagnitude_magnitude (x : Binary64) : ofMagnitude x.isNegative x.magnitude = x := by
  obtain ⟨bits⟩ := x
  have bound := bits.isLt
  unfold ofMagnitude isNegative magnitude
  congr 1
  apply BitVec.eq_of_toNat_eq
  rw [BitVec.toNat_ofNat, BitVec.msb_eq_decide]
  simp only [signBit, Nat.pow_eq, decide_eq_true_eq]
  split <;> omega

end RolloutWatch.Binary64

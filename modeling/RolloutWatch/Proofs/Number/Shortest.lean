import RolloutWatch.Proofs.Number.Rounding
import Mathlib.Data.Nat.Cast.Order.Field

/-!
The shortest decimal of a number lies in the neighbourhood of the number, so that it is rounded
to the number. With seventeen digits the grid of decimals is finer than the neighbourhood is
wide, and one of the two grid points next to the number is in it.
-/

namespace RolloutWatch

def Decimal.value (d : Decimal) : ℚ :=
  d.coefficient * (10 : ℚ) ^ d.exponent

namespace Binary64

/-! ### The decimal order of a ratio -/

def reaches (n d : ℕ) (k : ℤ) : Bool :=
  if k < 0 then d ≤ n * Nat.pow 10 (-k).toNat else d * Nat.pow 10 k.toNat ≤ n

theorem reaches_iff {n d : ℕ} (dPos : d ≠ 0) (k : ℤ) :
    reaches n d k = true ↔ (10 : ℚ) ^ k ≤ (n : ℚ) / d := by
  have dCast : (0 : ℚ) < d := Nat.cast_pos.mpr (by omega)
  unfold reaches
  rw [le_div_iff₀ dCast]
  split
  · obtain ⟨j, rfl⟩ : ∃ j : ℕ, k = -j := ⟨(-k).toNat, by omega⟩
    have power : (0 : ℚ) < 10 ^ j := by positivity
    rw [Int.neg_neg, Int.toNat_natCast, decide_eq_true_eq, zpow_neg, zpow_natCast,
      inv_mul_le_iff₀ power, Nat.pow_eq, mul_comm n]
    exact_mod_cast Iff.rfl
  · obtain ⟨j, rfl⟩ : ∃ j : ℕ, k = j := ⟨k.toNat, by omega⟩
    rw [Int.toNat_natCast, decide_eq_true_eq, zpow_natCast, Nat.pow_eq, mul_comm d]
    exact_mod_cast Iff.rfl

private theorem guess_above : ∀ k < 1100, 10 ^ (k * 30103 / 100000) ≤ 10 * 2 ^ k := by
  decide +kernel

private theorem guess_below : ∀ k < 1100, 2 ^ k ≤ 10 * 10 ^ ((k * 30103 + 99999) / 100000) := by
  decide +kernel

/-- The decimal order that is guessed from the binary order is too high by one at most. -/
theorem guess_le {binary : ℤ} (low : -1100 < binary) (high : binary < 1100) :
    (10 : ℚ) ^ (binary * 30103 / 100000 - 1) ≤ 2 ^ binary := by
  rw [zpow_sub₀ (by norm_num), zpow_one, div_le_iff₀ (by norm_num), mul_comm ((2 : ℚ) ^ binary)]
  rcases le_or_gt 0 binary with positive | negative
  · obtain ⟨k, rfl⟩ : ∃ k : ℕ, binary = k := ⟨binary.toNat, by omega⟩
    have bound := guess_above k (by omega)
    have guess : (k : ℤ) * 30103 / 100000 = ((k * 30103 / 100000 : ℕ) : ℤ) := by push_cast; rfl
    rw [guess, zpow_natCast, zpow_natCast]
    exact_mod_cast bound
  · obtain ⟨k, rfl⟩ : ∃ k : ℕ, binary = -k := ⟨(-binary).toNat, by omega⟩
    have bound := guess_below k (by omega)
    have guess : -(k : ℤ) * 30103 / 100000 = -(((k * 30103 + 99999) / 100000 : ℕ) : ℤ) := by
      omega
    have two : (0 : ℚ) < 2 ^ k := by positivity
    have ten : (0 : ℚ) < 10 ^ ((k * 30103 + 99999) / 100000) := by positivity
    rw [guess, zpow_neg, zpow_neg, zpow_natCast, zpow_natCast, inv_le_iff_one_le_mul₀ ten]
    rw [mul_assoc, inv_mul_eq_div, mul_div_assoc', le_div_iff₀ two, one_mul]
    exact_mod_cast bound

theorem decimalOrder_le {n d : ℕ} (nPos : n ≠ 0) (dPos : d ≠ 0)
    (low : (2 : ℚ) ^ (-1074 : ℤ) ≤ (n : ℚ) / d) (high : (n : ℚ) / d < 2 ^ (1024 : ℤ)) :
    (10 : ℚ) ^ decimalOrder n d ≤ (n : ℚ) / d := by
  obtain ⟨above, below⟩ := ratio_order nPos dPos
  have order : decimalOrder n d =
      (let guess := ((Nat.log2 n : ℤ) - Nat.log2 d - 1) * 30103 / 100000
       if reaches n d (guess + 1) then guess + 1
       else if reaches n d guess then guess else guess - 1) := rfl
  rw [order]
  simp only
  split
  · rename_i more
    exact (reaches_iff dPos _).mp more
  · split
    · rename_i exact_
      exact (reaches_iff dPos _).mp exact_
    · refine (guess_le ?_ ?_).trans above.le
      · have far := (zpow_lt_zpow_iff_right₀ (by norm_num : (1 : ℚ) < 2)).mp (low.trans_lt below)
        omega
      · have far := (zpow_lt_zpow_iff_right₀ (by norm_num : (1 : ℚ) < 2)).mp (above.trans high)
        omega

/-! ### Grids of decimals -/

def gridScale (near : Neighbourhood) (grid : ℤ) (n : ℕ) : ℕ :=
  (if near.exponent < 0 then n else n * Nat.pow 2 near.exponent.toNat) *
    (if grid < 0 then Nat.pow 10 (-grid).toNat else 1)

def gridUnit (near : Neighbourhood) (grid : ℤ) : ℕ :=
  (if near.exponent < 0 then Nat.pow 2 (-near.exponent).toNat else 1) *
    (if grid < 0 then 1 else Nat.pow 10 grid.toNat)

theorem gridUnit_pos (near : Neighbourhood) (grid : ℤ) : 0 < gridUnit near grid := by
  unfold gridUnit
  apply Nat.mul_pos
  · split
    · exact Nat.pow_pos (by decide)
    · exact Nat.one_pos
  · split
    · exact Nat.one_pos
    · exact Nat.pow_pos (by decide)

theorem gridScale_value (near : Neighbourhood) (grid : ℤ) (n : ℕ) :
    (gridScale near grid n : ℚ) / gridUnit near grid =
      n * (2 : ℚ) ^ near.exponent / (10 : ℚ) ^ grid := by
  have binary : ((if near.exponent < 0 then n else n * Nat.pow 2 near.exponent.toNat : ℕ) : ℚ) /
      ((if near.exponent < 0 then Nat.pow 2 (-near.exponent).toNat else 1 : ℕ) : ℚ) =
        n * (2 : ℚ) ^ near.exponent := by
    split
    · obtain ⟨k, exponent⟩ : ∃ k : ℕ, near.exponent = -k :=
        ⟨(-near.exponent).toNat, by omega⟩
      rw [exponent, Int.neg_neg, Int.toNat_natCast, Nat.pow_eq, zpow_neg, zpow_natCast,
        div_eq_mul_inv]
      push_cast
      rfl
    · obtain ⟨k, exponent⟩ : ∃ k : ℕ, near.exponent = k := ⟨near.exponent.toNat, by omega⟩
      rw [exponent, Int.toNat_natCast, Nat.pow_eq, zpow_natCast]
      push_cast
      rw [div_one]
  have decimal : ((if grid < 0 then Nat.pow 10 (-grid).toNat else 1 : ℕ) : ℚ) /
      ((if grid < 0 then 1 else Nat.pow 10 grid.toNat : ℕ) : ℚ) = 1 / (10 : ℚ) ^ grid := by
    split
    · obtain ⟨k, rfl⟩ : ∃ k : ℕ, grid = -k := ⟨(-grid).toNat, by omega⟩
      rw [Int.neg_neg, Int.toNat_natCast, Nat.pow_eq, zpow_neg, zpow_natCast]
      push_cast
      rw [div_one, one_div, inv_inv]
    · obtain ⟨k, rfl⟩ : ∃ k : ℕ, grid = k := ⟨grid.toNat, by omega⟩
      rw [Int.toNat_natCast, Nat.pow_eq, zpow_natCast]
      push_cast
      rfl
  unfold gridScale gridUnit
  rw [Nat.cast_mul, Nat.cast_mul, mul_div_mul_comm, binary, decimal, mul_one_div]

def fitsGrid (near : Neighbourhood) (grid : ℤ) (c : ℕ) : Bool :=
  if near.closed then
    gridScale near grid near.low ≤ c * gridUnit near grid &&
      c * gridUnit near grid ≤ gridScale near grid near.high
  else
    gridScale near grid near.low < c * gridUnit near grid &&
      c * gridUnit near grid < gridScale near grid near.high

theorem fitsGrid_iff (near : Neighbourhood) (grid : ℤ) (c : ℕ) :
    fitsGrid near grid c = true ↔ near.Holds (c * (10 : ℚ) ^ grid) := by
  have unit : (0 : ℚ) < gridUnit near grid := Nat.cast_pos.mpr (gridUnit_pos near grid)
  have ten : (0 : ℚ) < 10 ^ grid := by positivity
  have least (n : ℕ) : gridScale near grid n ≤ c * gridUnit near grid ↔
      n * (2 : ℚ) ^ near.exponent ≤ c * 10 ^ grid := by
    rw [← div_le_iff₀ ten, ← gridScale_value, div_le_iff₀ unit]
    exact_mod_cast Iff.rfl
  have most (n : ℕ) : c * gridUnit near grid ≤ gridScale near grid n ↔
      c * 10 ^ grid ≤ n * (2 : ℚ) ^ near.exponent := by
    rw [← le_div_iff₀ ten, ← gridScale_value, le_div_iff₀ unit]
    exact_mod_cast Iff.rfl
  unfold fitsGrid Neighbourhood.Holds
  split
  · rw [Bool.and_eq_true, decide_eq_true_eq, decide_eq_true_eq, least, most]
  · rw [Bool.and_eq_true, decide_eq_true_eq, decide_eq_true_eq, ← not_le, ← not_le, most, least,
      not_le, not_le]

theorem mem_candidates {tie : TieRule} {near : Neighbourhood} {grid : ℤ} {c : ℕ} :
    c ∈ candidates tie near grid ↔
      (c = gridScale near grid near.value / gridUnit near grid ∨
        c = gridScale near grid near.value / gridUnit near grid + 1) ∧
        c ≠ 0 ∧ near.Holds (c * (10 : ℚ) ^ grid) := by
  rw [← fitsGrid_iff]
  have listed : candidates tie near grid =
      (let below := gridScale near grid near.value / gridUnit near grid
       let above := below + 1
       let gapBelow := gridScale near grid near.value - below * gridUnit near grid
       let gapAbove := above * gridUnit near grid - gridScale near grid near.value
       let belowFirst : Bool :=
         gapBelow < gapAbove || (gapBelow = gapAbove && tie = .toEven && below % 2 = 0)
       (if belowFirst then [below, above] else [above, below]).filter fun c =>
         c ≠ 0 && fitsGrid near grid c) := rfl
  rw [listed]
  simp only [List.mem_filter, Bool.and_eq_true, decide_eq_true_eq]
  refine and_congr_left fun _ => ?_
  split
  · simp only [List.mem_cons, List.not_mem_nil, or_false]
  · simp only [List.mem_cons, List.not_mem_nil, or_false]
    exact or_comm

/-! ### Seventeen digits -/

/-- Ratios closer to a number than half a grid step are in its neighbourhood, if the step is less
than the part `10 ^ -16` of the number. -/
theorem near_of_close {s : Scaled} (normal : s.Normal) (positive : 0 < s.significand) {q : ℚ}
    (below : s.value - s.value / (2 * 10 ^ 16) ≤ q)
    (above : q ≤ s.value + s.value / (2 * 10 ^ 16)) : (neighbourhood s).Holds q := by
  have unit : (0 : ℚ) < 2 ^ s.exponent := by positivity
  have bits : (s.significand : ℚ) ≤ 2 ^ 53 := by exact_mod_cast normal.bits.le
  have value : s.value = s.significand * 2 ^ s.exponent := rfl
  have narrow : s.value / (2 * 10 ^ 16) < 1 / 2 * 2 ^ s.exponent := by
    rw [value, div_lt_iff₀ (by norm_num)]
    nlinarith
  have high : q < (neighbourhood s).high * (2 : ℚ) ^ (neighbourhood s).exponent := by
    unfold neighbourhood
    simp only [two_zpow_sub_two]
    push_cast
    nlinarith
  have low : (neighbourhood s).low * (2 : ℚ) ^ (neighbourhood s).exponent < q := by
    unfold neighbourhood
    simp only [two_zpow_sub_two]
    split
    · rename_i hidden
      have significand : (s.significand : ℚ) = 2 ^ 52 := by
        rw [hidden.1, hiddenBit_eq]
        norm_num
      have narrower : s.value / (2 * 10 ^ 16) < 1 / 4 * 2 ^ s.exponent := by
        rw [value, significand, div_lt_iff₀ (by norm_num)]
        nlinarith
      rw [Nat.cast_sub (by omega)]
      push_cast
      nlinarith
    · rw [Nat.cast_sub (by omega)]
      push_cast
      nlinarith
  unfold Neighbourhood.Holds
  split
  · exact ⟨low.le, high.le⟩
  · exact ⟨low, high⟩

theorem exists_candidate {s : Scaled} (normal : s.Normal) (positive : 0 < s.significand)
    (tie : TieRule) {order : ℤ} (reached : (10 : ℚ) ^ order ≤ s.value) :
    ∃ c, c ∈ candidates tie (neighbourhood s) (order - 16) := by
  let near := neighbourhood s
  have unitPos : (0 : ℚ) < gridUnit near (order - 16) :=
    Nat.cast_pos.mpr (gridUnit_pos near (order - 16))
  have step : (0 : ℚ) < 10 ^ (order - 16) := by positivity
  have steps : (10 : ℚ) ^ order = 10 ^ 16 * 10 ^ (order - 16) := by
    rw [← zpow_natCast, ← zpow_add₀ (by norm_num)]
    congr 1
    push_cast
    ring
  rw [steps] at reached
  have counted : (gridScale near (order - 16) near.value : ℚ) / gridUnit near (order - 16) =
      s.value / 10 ^ (order - 16) := by
    rw [gridScale_value]
    congr 1
    change ((4 * s.significand : ℕ) : ℚ) * (2 : ℚ) ^ (s.exponent - 2) = _
    rw [two_zpow_sub_two]
    unfold Scaled.value
    push_cast
    ring
  generalize below_eq : gridScale near (order - 16) near.value / gridUnit near (order - 16) = below
  have parts : (below : ℚ) * 10 ^ (order - 16) ≤ s.value ∧
      s.value < ((below : ℚ) + 1) * 10 ^ (order - 16) := by
    rw [← le_div_iff₀ step, ← div_lt_iff₀ step, ← counted, ← below_eq]
    constructor
    · exact Nat.cast_div_le
    · rw [div_lt_iff₀ unitPos]
      have small := Nat.lt_div_mul_add (a := gridScale near (order - 16) near.value)
        (gridUnit_pos near (order - 16))
      have cast : (gridScale near (order - 16) near.value : ℚ) <
          (gridScale near (order - 16) near.value / gridUnit near (order - 16) : ℕ) *
            gridUnit near (order - 16) + gridUnit near (order - 16) := by
        exact_mod_cast small
      linarith
  have fine : (10 : ℚ) ^ (order - 16) / 2 ≤ s.value / (2 * 10 ^ 16) := by
    rw [div_le_div_iff₀ (by norm_num) (by norm_num)]
    nlinarith
  -- The nearer one of the two grid points is at most half a step away.
  rcases le_total (s.value - below * 10 ^ (order - 16)) (10 ^ (order - 16) / 2) with
    close | far
  · refine ⟨below, mem_candidates.mpr ⟨.inl below_eq.symm, ?_, ?_⟩⟩
    · rintro rfl
      push_cast at parts
      nlinarith
    · exact near_of_close normal positive (by linarith) (by linarith)
  · refine ⟨below + 1, mem_candidates.mpr ⟨.inr (congrArg (· + 1) below_eq.symm), by omega, ?_⟩⟩
    push_cast
    exact near_of_close normal positive (by linarith) (by linarith)

/-! ### The shortest decimal -/

theorem trim_value (fuel : ℕ) (d : Decimal) :
    (Decimal.trim fuel d).value = d.value ∧
      ((Decimal.trim fuel d).coefficient = 0 ↔ d.coefficient = 0) := by
  induction fuel generalizing d with
  | zero => exact ⟨rfl, Iff.rfl⟩
  | succ fuel ih =>
      unfold Decimal.trim
      split
      · rename_i tens
        obtain ⟨value, zero⟩ := ih { coefficient := d.coefficient / 10, exponent := d.exponent + 1 }
        obtain ⟨c, ten⟩ := Nat.dvd_of_mod_eq_zero tens.2
        refine ⟨value.trans ?_, zero.trans ?_⟩
        · unfold RolloutWatch.Decimal.value
          simp only
          rw [ten, Nat.mul_div_cancel_left _ (by decide), zpow_add₀ (by norm_num)]
          push_cast
          ring
        · simp only
          omega
      · exact ⟨rfl, Iff.rfl⟩

theorem scaled_exponent_le {x : Binary64} (finite : x.isFinite = true) :
    x.scaled.exponent ≤ 971 := by
  have bound : x.magnitude < 2047 * hiddenBit := of_decide_eq_true finite
  have field : x.magnitude / hiddenBit < 2047 := (Nat.div_lt_iff_lt_mul (by decide)).mpr bound
  unfold scaled
  generalize x.magnitude / hiddenBit = field at *
  simp only
  split
  · simp only
    omega
  · simp only
    omega

theorem value_bounds {x : Binary64} (finite : x.isFinite = true) (nonzero : x.magnitude ≠ 0) :
    (2 : ℚ) ^ (-1074 : ℤ) ≤ x.scaled.value ∧ x.scaled.value < 2 ^ (1024 : ℤ) := by
  have normal := scaled_normal x
  have unit : (0 : ℚ) < 2 ^ x.scaled.exponent := by positivity
  have one : (1 : ℚ) ≤ x.scaled.significand := by
    exact_mod_cast Nat.succ_le_of_lt (scaled_significand_pos nonzero)
  have bits : (x.scaled.significand : ℚ) < 2 ^ (53 : ℤ) := by exact_mod_cast normal.bits
  unfold Scaled.value
  constructor
  · calc (2 : ℚ) ^ (-1074 : ℤ) ≤ 2 ^ x.scaled.exponent :=
          zpow_le_zpow_right₀ (by norm_num) normal.least
      _ ≤ x.scaled.significand * 2 ^ x.scaled.exponent := le_mul_of_one_le_left unit.le one
  · calc x.scaled.significand * (2 : ℚ) ^ x.scaled.exponent
        < 2 ^ (53 : ℤ) * 2 ^ x.scaled.exponent := mul_lt_mul_of_pos_right bits unit
      _ = 2 ^ (53 + x.scaled.exponent) := (zpow_add₀ (by norm_num) _ _).symm
      _ ≤ 2 ^ (1024 : ℤ) := by
          have := scaled_exponent_le finite
          exact zpow_le_zpow_right₀ (by norm_num) (by omega)

def hit? (tie : TieRule) (x : Binary64) (digits : ℕ) : Option RolloutWatch.Decimal :=
  (candidates tie (neighbourhood x.scaled)
      (decimalOrder x.ratio.1 x.ratio.2 - (digits : ℤ) + 1)).head?.map fun c =>
    { coefficient := c, exponent := decimalOrder x.ratio.1 x.ratio.2 - (digits : ℤ) + 1 }

theorem shortest_eq (tie : TieRule) (x : Binary64) :
    shortest tie x =
      if x.ratio.1 = 0 then { coefficient := 0, exponent := 0 }
      else
        match (List.range 17).findSome? fun i => hit? tie x (i + 1) with
        | some found => Decimal.trim 20 found
        | none => { coefficient := 0, exponent := 0 } := by
  unfold shortest hit?
  rcases x.ratio with ⟨n, d⟩
  generalize 17 = most
  generalize 20 = fuel
  rfl

theorem hit_near {tie : TieRule} {x : Binary64} {digits : ℕ} {d : RolloutWatch.Decimal}
    (found : hit? tie x digits = some d) :
    d.coefficient ≠ 0 ∧ (neighbourhood x.scaled).Holds d.value := by
  obtain ⟨c, first, rfl⟩ := Option.map_eq_some_iff.mp found
  exact (mem_candidates.mp (List.mem_of_head? first)).2

theorem ratio_ne_zero {x : Binary64} (nonzero : x.magnitude ≠ 0) : x.ratio.1 ≠ 0 := by
  intro zero
  have significand : (0 : ℚ) < x.scaled.significand :=
    Nat.cast_pos.mpr (scaled_significand_pos nonzero)
  have value := (ratio_value x).1
  rw [zero, Nat.cast_zero, zero_div] at value
  unfold Scaled.value at value
  have unit : (0 : ℚ) < 2 ^ x.scaled.exponent := by positivity
  exact (mul_pos significand unit).ne value

/-- The shortest decimal of a finite number that is not zero is rounded to the number. -/
theorem shortest_near (tie : TieRule) {x : Binary64} (finite : x.isFinite = true)
    (nonzero : x.magnitude ≠ 0) :
    (shortest tie x).coefficient ≠ 0 ∧
      (neighbourhood x.scaled).Holds (shortest tie x).value := by
  obtain ⟨ratio, denominator⟩ := ratio_value x
  obtain ⟨low, high⟩ := value_bounds finite nonzero
  have numerator := ratio_ne_zero nonzero
  have order : (10 : ℚ) ^ decimalOrder x.ratio.1 x.ratio.2 ≤ x.scaled.value := by
    rw [← ratio] at low high ⊢
    exact decimalOrder_le numerator denominator low high
  rw [shortest_eq, if_neg numerator]
  cases found : (List.range 17).findSome? fun i => hit? tie x (i + 1) with
  | some d =>
      obtain ⟨i, -, hit⟩ := List.exists_of_findSome?_eq_some found
      obtain ⟨value, zero⟩ := trim_value 20 d
      obtain ⟨coefficient, near⟩ := hit_near hit
      simp only
      rw [value]
      exact ⟨fun trimmed => coefficient (zero.mp trimmed), near⟩
  | none =>
      -- The search cannot miss, since the last grid that it tries has a candidate.
      obtain ⟨c, present⟩ :=
        exists_candidate (scaled_normal x) (scaled_significand_pos nonzero) tie order
      have last := List.findSome?_eq_none_iff.mp found 16 (by decide)
      have grid : decimalOrder x.ratio.1 x.ratio.2 - ((16 + 1 : ℕ) : ℤ) + 1 =
          decimalOrder x.ratio.1 x.ratio.2 - 16 := by
        push_cast
        ring
      unfold hit? at last
      rw [grid, Option.map_eq_none_iff, List.head?_eq_none_iff] at last
      rw [last] at present
      cases present

end Binary64

end RolloutWatch

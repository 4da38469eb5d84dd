import WorkerPipeline.Binary64.Shortest
import WorkerPipeline.Proofs.Binary64.Rounding

set_option autoImplicit false

/-! # The search for a decimal succeeds

The last grid that is tried for a number is finer than the interval of the number, so a point of
some grid is found. It is positive and exceeds the number by half a unit of its last place at most
(`shortest_spec`).
-/

namespace WorkerPipeline.Binary64

namespace Interval

variable {i : Interval} {k : Int}

/-! ## Grids -/

/-- A power of ten as a ratio. -/
def tenPower (k : Int) : Nat × Nat := if 0 ≤ k then (10 ^ k.toNat, 1) else (1, 10 ^ (-k).toNat)

theorem tenPower_pos (k : Int) : 0 < (tenPower k).1 ∧ 0 < (tenPower k).2 := by
  unfold tenPower
  split
  · exact ⟨Nat.pow_pos (by decide), Nat.one_pos⟩
  · exact ⟨Nat.one_pos, Nat.pow_pos (by decide)⟩

theorem tenPower_div (k : Int) : ((tenPower k).1 : ℚ) / (tenPower k).2 = 10 ^ k := by
  unfold tenPower
  split
  · rename_i h
    push_cast
    rw [pow_toNat 10 h, div_one]
  · rename_i h
    push_cast
    rw [pow_neg_toNat 10 (by omega), one_div, inv_inv]

theorem step_eq (i : Interval) (k : Int) :
    i.step k = if 0 ≤ i.exponent
      then ((tenPower k).1, (tenPower k).2 * 2 ^ i.exponent.toNat)
      else ((tenPower k).1 * 2 ^ (-i.exponent).toNat, (tenPower k).2) := rfl

theorem step_pos (i : Interval) (k : Int) : 0 < (i.step k).1 ∧ 0 < (i.step k).2 := by
  obtain ⟨hfst, hsnd⟩ := tenPower_pos k
  rw [step_eq]
  split
  · exact ⟨hfst, Nat.mul_pos hsnd (Nat.two_pow_pos _)⟩
  · exact ⟨Nat.mul_pos hfst (Nat.two_pow_pos _), hsnd⟩

theorem step_div (i : Interval) (k : Int) :
    ((i.step k).1 : ℚ) / (i.step k).2 = 10 ^ k / 2 ^ i.exponent := by
  rw [step_eq, ← tenPower_div]
  split
  · rename_i h
    push_cast
    rw [pow_toNat 2 h, div_div]
  · rename_i h
    push_cast
    rw [pow_neg_toNat 2 (by omega), mul_div_right_comm, ← div_eq_mul_inv]

/-- Steps and units of the interval compare as the numbers they stand for. -/
theorem mul_step_le_iff (i : Interval) (k : Int) (n m : Nat) :
    n * (i.step k).1 ≤ m * (i.step k).2 ↔ (n : ℚ) * 10 ^ k ≤ m * 2 ^ i.exponent := by
  have hpos : (0 : ℚ) < (i.step k).2 := by exact_mod_cast (i.step_pos k).2
  rw [← div_le_iff₀ (two_zpow_pos _), mul_div_assoc, ← step_div, ← mul_div_assoc,
    div_le_iff₀ hpos]
  exact_mod_cast Iff.rfl

theorem step_lt_iff (i : Interval) (k : Int) (m : Nat) :
    (i.step k).1 < m * (i.step k).2 ↔ (10 : ℚ) ^ k < m * 2 ^ i.exponent := by
  have hpos : (0 : ℚ) < (i.step k).2 := by exact_mod_cast (i.step_pos k).2
  rw [← div_lt_iff₀ (two_zpow_pos _), ← step_div, div_lt_iff₀ hpos]
  exact_mod_cast Iff.rfl

/-! ## Points of a grid -/

theorem le_high_of_holds {step : Nat × Nat} {n : Nat} (h : i.holds step n = true) :
    n * step.1 ≤ i.high * step.2 := by
  unfold holds at h
  split at h
  · simp only [Bool.and_eq_true, decide_eq_true_eq] at h
    exact h.2
  · simp only [Bool.and_eq_true, decide_eq_true_eq] at h
    exact h.2.le

/-- A point that is found is positive and lies in the interval. -/
theorem holds_of_onGrid {n : Nat} (h : i.onGrid k = some n) :
    0 < n ∧ i.holds (i.step k) n = true := by
  unfold onGrid at h
  simp only at h
  split at h
  · rename_i hbelow habove
    rw [Bool.and_eq_true, decide_eq_true_eq] at hbelow
    split at h
    · cases h
      exact hbelow
    · cases h
      exact ⟨Nat.succ_pos _, habove⟩
  · rename_i hbelow _
    rw [Bool.and_eq_true, decide_eq_true_eq] at hbelow
    cases h
    exact hbelow
  · rename_i habove
    cases h
    exact ⟨Nat.succ_pos _, habove⟩
  · cases h

/-- A grid that is finer than half the interval has a point between the centre and the upper
end. -/
theorem isSome_onGrid (hlow : i.low ≤ i.centre) (hhigh : i.centre + 2 ≤ i.high)
    (hfine : (i.step k).1 < 2 * (i.step k).2) : (i.onGrid k).isSome = true := by
  obtain ⟨hfst, hsnd⟩ := i.step_pos k
  have habove : i.holds (i.step k) (i.centre * (i.step k).2 / (i.step k).1 + 1) = true := by
    have hdiv := Nat.div_add_mod (i.centre * (i.step k).2) (i.step k).1
    have hmod := Nat.mod_lt (i.centre * (i.step k).2) hfst
    have hpoint : (i.centre * (i.step k).2 / (i.step k).1 + 1) * (i.step k).1 =
        (i.step k).1 * (i.centre * (i.step k).2 / (i.step k).1) + (i.step k).1 := by
      rw [Nat.add_mul, Nat.one_mul, Nat.mul_comm]
    have hlow' := Nat.mul_le_mul_right (i.step k).2 hlow
    have hhigh' := Nat.mul_le_mul_right (i.step k).2 hhigh
    rw [Nat.add_mul] at hhigh'
    unfold holds
    simp only [hpoint]
    split <;> simp only [Bool.and_eq_true, decide_eq_true_eq] <;> omega
  unfold onGrid
  simp only [habove]
  split
  · rfl
  · rfl
  · rfl
  · contradiction

/-! ## The search -/

/-- The search ends at a grid with a point, if one of the grids that are tried has one. -/
theorem search_spec {fuel : Nat} (h : ∃ j < fuel, (i.onGrid (k - j)).isSome = true) :
    i.onGrid (i.search fuel k).exponent = some (i.search fuel k).digits := by
  induction fuel generalizing k with
  | zero =>
      obtain ⟨j, hj, -⟩ := h
      exact absurd hj (Nat.not_lt_zero j)
  | succ fuel ih =>
      rw [search]
      cases hn : i.onGrid k with
      | some n => exact hn
      | none =>
          obtain ⟨j, hj, hsome⟩ := h
          cases j with
          | zero =>
              rw [Nat.cast_zero, Int.sub_zero, hn] at hsome
              cases hsome
          | succ j =>
              refine ih ⟨j, by omega, ?_⟩
              rw [show k - 1 - (j : Int) = k - (j + 1 : Nat) by omega]
              exact hsome

end Interval

/-! ## The fields of a number -/

variable {x : Binary64}

theorem exponentField_lt (hfinite : x.isFinite = true) : x.exponentField < 2047 := by
  have hne : x.exponentField ≠ 2047 := of_decide_eq_true hfinite
  unfold exponentField magnitudeBits at *
  omega

theorem significand_lt (x : Binary64) : x.significand < 2 ^ 53 := by
  unfold significand fraction
  split <;> omega

theorem significand_pos (hzero : x.isZero = false) : 0 < x.significand := by
  have hbits : x.magnitudeBits ≠ 0 := of_decide_eq_false hzero
  unfold significand
  split
  · rename_i hfield
    unfold exponentField at hfield
    unfold fraction
    omega
  · exact Nat.add_pos_left (Nat.two_pow_pos 52) _

/-! ## The last grid -/

/-- Where `10 ^ n` lies between `2 ^ d` and twice that, `n / d` is about the logarithm of two to
the base ten, and decimal exponents can be read off binary ones. -/
theorem ten_zpow_div_le {n d : Nat} (hd : 0 < d) (hlow : 2 ^ d ≤ 10 ^ n)
    (hhigh : 10 ^ n ≤ 2 ^ (d + 1)) {b : Int} (hb : b ≤ d) :
    (10 : ℚ) ^ (b * n / d) ≤ 2 ^ (b + 1) := by
  refine le_of_pow_le_pow_left₀ hd.ne' (two_zpow_pos _).le ?_
  have hdiv : b * n / d * d ≤ n * b := by
    rw [mul_comm (n : Int)]
    exact Int.ediv_mul_le _ (by omega)
  have hbase : ((10 : ℚ) ^ n) ^ b ≤ 2 ^ ((b + 1) * d) := by
    rcases Int.le_total 0 b with hpos | hneg
    · have hpow : (10 : ℚ) ^ n ≤ 2 ^ (d + 1) := by exact_mod_cast hhigh
      calc ((10 : ℚ) ^ n) ^ b ≤ (2 ^ (d + 1)) ^ b := zpow_le_zpow_left₀ hpos (by positivity) hpow
        _ = 2 ^ (((d + 1 : Nat) : Int) * b) := by rw [zpow_mul, zpow_natCast]
        _ ≤ 2 ^ ((b + 1) * d) := zpow_le_zpow_right₀ (by norm_num) (by push_cast; linarith)
    · have hpow : (2 : ℚ) ^ d ≤ 10 ^ n := by exact_mod_cast hlow
      calc ((10 : ℚ) ^ n) ^ b = (((10 : ℚ) ^ n) ^ (-b))⁻¹ := by rw [zpow_neg, inv_inv]
        _ ≤ ((2 ^ d) ^ (-b))⁻¹ :=
          inv_anti₀ (by positivity) (zpow_le_zpow_left₀ (by omega) (by positivity) hpow)
        _ = 2 ^ ((d : Int) * b) := by rw [zpow_neg, inv_inv, zpow_mul, zpow_natCast]
        _ ≤ 2 ^ ((b + 1) * d) := zpow_le_zpow_right₀ (by norm_num) (by linarith)
  calc ((10 : ℚ) ^ (b * n / d)) ^ d = 10 ^ (b * n / d * d) := by rw [zpow_mul, zpow_natCast]
    _ ≤ 10 ^ ((n : Int) * b) := zpow_le_zpow_right₀ (by norm_num) hdiv
    _ = (10 ^ n) ^ b := by rw [zpow_mul, zpow_natCast]
    _ ≤ 2 ^ ((b + 1) * d) := hbase
    _ = (2 ^ (b + 1)) ^ d := by rw [zpow_mul, zpow_natCast]

/-- The grid that is tried last for a number between `2 ^ b` and `2 ^ (b + 1)` is finer than half a
unit of its last place. -/
theorem ten_zpow_lt {b : Int} (hb : b ≤ 1023) :
    (10 : ℚ) ^ (b * 30103 / 100000 - 19) < 2 ^ (b - 53) := by
  have hlow : 2 ^ 100000 ≤ 10 ^ 30103 := by decide +kernel
  have hhigh : 10 ^ 30103 ≤ 2 ^ (100000 + 1) := by decide +kernel
  have hle := ten_zpow_div_le (by decide) hlow hhigh (b := b) (by omega)
  have hunit : (10 : ℚ) ^ (-19 : Int) < 2 ^ (-54 : Int) := by norm_num
  calc (10 : ℚ) ^ (b * 30103 / 100000 - 19) = 10 ^ (b * 30103 / 100000) * 10 ^ (-19 : Int) := by
        rw [← zpow_add₀ (by norm_num), Int.sub_eq_add_neg]
    _ < 2 ^ (b + 1) * 2 ^ (-54 : Int) :=
        mul_lt_mul' hle hunit (by positivity) (two_zpow_pos _)
    _ = 2 ^ (b - 53) := by
        rw [← two_zpow_add]
        congr 1
        omega

/-- **The shortest decimal of a number** is positive and lies at or below the upper end of the
number's interval. -/
theorem shortest_spec (hfinite : x.isFinite = true) (hzero : x.isZero = false) :
    0 < x.shortest.digits ∧
      (x.shortest.digits : ℚ) * 10 ^ x.shortest.exponent ≤
        (4 * x.significand + 2) * 2 ^ (x.exponent - 2) := by
  have hfield := exponentField_lt hfinite
  have hpos := significand_pos hzero
  have hlog : x.significand.log2 ≤ 52 := by
    rw [← Nat.lt_succ_iff, Nat.log2_lt (Nat.ne_of_gt hpos)]
    exact x.significand_lt
  have hhigh : x.exponent ≤ 971 := by unfold exponent; omega
  have hfine := ten_zpow_lt (b := (x.significand.log2 : Int) + x.exponent) (by omega)
  unfold shortest
  simp only
  generalize hb : (x.significand.log2 : Int) + x.exponent = b at hfine
  have hsome : (x.interval.onGrid (b * 30103 / 100000 + 2 - (21 : Nat))).isSome = true := by
    have hcentre : x.interval.low ≤ x.interval.centre := by
      unfold interval
      simp only
      split <;> omega
    refine Interval.isSome_onGrid hcentre (Nat.le_refl _) ?_
    rw [Interval.step_lt_iff]
    calc (10 : ℚ) ^ (b * 30103 / 100000 + 2 - (21 : Nat))
        = 10 ^ (b * 30103 / 100000 - 19) := by
          congr 1
          omega
      _ < 2 ^ (b - 53) := hfine
      _ ≤ 2 ^ (1 + (x.exponent - 2)) := zpow_le_zpow_right₀ (by norm_num) (by omega)
      _ = (2 : Nat) * 2 ^ (x.exponent - 2) := by rw [two_zpow_add, zpow_one, Nat.cast_two]
  have hspec := Interval.search_spec ⟨21, (by decide : 21 < 22), hsome⟩
  obtain ⟨hdigits, hholds⟩ := Interval.holds_of_onGrid hspec
  have hhigh := (Interval.mul_step_le_iff _ _ _ _).mp (Interval.le_high_of_holds hholds)
  refine ⟨hdigits, hhigh.trans_eq ?_⟩
  show ((4 * x.significand + 2 : Nat) : ℚ) * 2 ^ (x.exponent - 2) = _
  push_cast
  rfl

end WorkerPipeline.Binary64

import Mathlib.Algebra.Order.Field.Power
import Mathlib.Tactic.FieldSimp
import Mathlib.Tactic.Linarith
import Mathlib.Tactic.NormNum
import Mathlib.Tactic.Positivity
import Mathlib.Tactic.Ring
import WorkerPipeline.Binary64.Basic

set_option autoImplicit false

/-! # How far rounding goes

A ratio is rounded to a magnitude `m * 2 ^ k`, where `m` is the ratio over `2 ^ k` rounded to an
integer and `k` is chosen so that `m` has 53 bits if possible. So the result is finite unless the
ratio lies beyond the largest number (`isFinite_ofRatio`), and it is larger than the ratio by one
part in `2 ^ 53` at most (`magnitude_ofRatio_le`).
-/

namespace WorkerPipeline.Binary64

/-! ## Magnitudes -/

/-- The magnitude of a finite number. -/
def magnitude (x : Binary64) : ℚ := x.significand * 2 ^ x.exponent

theorem two_zpow_pos (e : Int) : (0 : ℚ) < 2 ^ e := zpow_pos (by norm_num) e

theorem two_zpow_add (a b : Int) : (2 : ℚ) ^ (a + b) = 2 ^ a * 2 ^ b := zpow_add₀ (by norm_num) a b

theorem pow_toNat (a : ℚ) {e : Int} (h : 0 ≤ e) : a ^ e.toNat = a ^ e := by
  rw [← zpow_natCast, Int.toNat_of_nonneg h]

theorem pow_neg_toNat (a : ℚ) {e : Int} (h : e < 0) : a ^ (-e).toNat = (a ^ e)⁻¹ := by
  rw [pow_toNat a (by omega), zpow_neg]

theorem scaled_snd_pos (n : Nat) (e : Int) : 0 < (scaled n e).2 := by
  unfold scaled
  split
  · exact Nat.one_pos
  · exact Nat.two_pow_pos _

theorem scaled_div (n : Nat) (e : Int) : ((scaled n e).1 : ℚ) / (scaled n e).2 = n * 2 ^ e := by
  unfold scaled
  split
  · rename_i h
    push_cast
    rw [pow_toNat 2 h, div_one]
  · rename_i h
    push_cast
    rw [pow_neg_toNat 2 (by omega), div_inv_eq_mul]

theorem ratio_snd_pos (x : Binary64) : 0 < x.ratio.2 := scaled_snd_pos _ _

theorem ratio_div (x : Binary64) : (x.ratio.1 : ℚ) / x.ratio.2 = x.magnitude := scaled_div _ _

/-! ## Rounding to an integer -/

theorem roundDiv_le {num den m : Nat} (h : num < den * m) : roundDiv num den ≤ m := by
  have hq : num / den < m := Nat.div_lt_of_lt_mul h
  unfold roundDiv
  simp only
  split <;> omega

theorem le_roundDiv {num den m : Nat} (hden : 0 < den) (h : den * m ≤ num) :
    m ≤ roundDiv num den := by
  have hq : m ≤ num / den := (Nat.le_div_iff_mul_le hden).mpr (by rw [Nat.mul_comm]; exact h)
  unfold roundDiv
  simp only
  split <;> omega

/-- Rounding adds half a unit at most. -/
theorem roundDiv_mul_le (num den : Nat) : 2 * (den * roundDiv num den) ≤ 2 * num + den := by
  have hdiv := Nat.div_add_mod num den
  unfold roundDiv
  simp only
  split
  · rw [Nat.mul_add, Nat.mul_one]
    omega
  · omega

/-! ## The exponent -/

/-- The ratio over `2 ^ k`. -/
def shifted (num den : Nat) (k : Int) : Nat × Nat :=
  if 0 ≤ k then (num, den * 2 ^ k.toNat) else (num * 2 ^ (-k).toNat, den)

variable {num den : Nat}

theorem shifted_snd_pos (num : Nat) (hden : 0 < den) (k : Int) : 0 < (shifted num den k).2 := by
  unfold shifted
  split
  · exact Nat.mul_pos hden (Nat.two_pow_pos _)
  · exact hden

theorem shifted_div (num den : Nat) (k : Int) :
    ((shifted num den k).1 : ℚ) / (shifted num den k).2 = (num / den : ℚ) / 2 ^ k := by
  unfold shifted
  split
  · rename_i h
    push_cast
    rw [pow_toNat 2 h, div_div]
  · rename_i h
    push_cast
    rw [pow_neg_toNat 2 (by omega), mul_div_right_comm, ← div_eq_mul_inv]

/-- A bound for the ratio over `2 ^ k` is one for the ratio. -/
theorem shifted_lt_iff (hden : 0 < den) (k : Int) (m : Nat) :
    (shifted num den k).1 < (shifted num den k).2 * m ↔ (num / den : ℚ) < m * 2 ^ k := by
  have hpos : (0 : ℚ) < (shifted num den k).2 := by exact_mod_cast shifted_snd_pos num hden k
  rw [← div_lt_iff₀ (two_zpow_pos k), ← shifted_div, div_lt_iff₀ hpos, mul_comm (m : ℚ)]
  exact_mod_cast Iff.rfl

theorem shifted_lt_two_pow_iff (hden : 0 < den) (k : Int) :
    (shifted num den k).1 < (shifted num den k).2 * 2 ^ 52 ↔ (num / den : ℚ) < 2 ^ (k + 52) := by
  rw [shifted_lt_iff hden, Nat.cast_pow, Nat.cast_two, Int.add_comm, two_zpow_add]
  exact Iff.rfl

theorem exponentOf_eq (num den : Nat) :
    exponentOf num den = max
      (if (shifted num den ((num.log2 : Int) - den.log2 - 52)).1 <
          (shifted num den ((num.log2 : Int) - den.log2 - 52)).2 * 2 ^ 52
        then (num.log2 : Int) - den.log2 - 52 - 1 else (num.log2 : Int) - den.log2 - 52)
      (-1074) := rfl

theorem le_exponentOf (num den : Nat) : -1074 ≤ exponentOf num den := Int.le_max_right _ _

theorem cast_lt_two_zpow (n : Nat) : (n : ℚ) < 2 ^ ((n.log2 : Int) + 1) := by
  have h : n < 2 ^ (n.log2 + 1) := Nat.lt_log2_self
  exact_mod_cast h

theorem two_zpow_le_cast {n : Nat} (hn : 0 < n) : (2 : ℚ) ^ (n.log2 : Int) ≤ n := by
  have h : 2 ^ n.log2 ≤ n := Nat.log2_self_le (Nat.ne_of_gt hn)
  exact_mod_cast h

/-- The ratio lies between the powers of two that the lengths of its parts suggest. -/
theorem div_lt_two_zpow (hden : 0 < den) :
    (num / den : ℚ) < 2 ^ ((num.log2 : Int) - den.log2 + 1) := by
  have hpos : (0 : ℚ) < den := by exact_mod_cast hden
  rw [div_lt_iff₀ hpos]
  calc (num : ℚ) < 2 ^ ((num.log2 : Int) + 1) := cast_lt_two_zpow num
    _ = 2 ^ ((num.log2 : Int) - den.log2 + 1) * 2 ^ (den.log2 : Int) := by
        rw [← two_zpow_add]
        congr 1
        omega
    _ ≤ 2 ^ ((num.log2 : Int) - den.log2 + 1) * den :=
        mul_le_mul_of_nonneg_left (two_zpow_le_cast hden) (two_zpow_pos _).le

theorem two_zpow_le_div (hnum : 0 < num) (hden : 0 < den) :
    (2 : ℚ) ^ ((num.log2 : Int) - den.log2 - 1) ≤ num / den := by
  have hpos : (0 : ℚ) < den := by exact_mod_cast hden
  rw [le_div_iff₀ hpos]
  calc (2 : ℚ) ^ ((num.log2 : Int) - den.log2 - 1) * den
      ≤ 2 ^ ((num.log2 : Int) - den.log2 - 1) * 2 ^ ((den.log2 : Int) + 1) :=
        mul_le_mul_of_nonneg_left (cast_lt_two_zpow den).le (two_zpow_pos _).le
    _ = 2 ^ (num.log2 : Int) := by
        rw [← two_zpow_add]
        congr 1
        omega
    _ ≤ num := two_zpow_le_cast hnum

/-- The significand at the exponent has 53 bits at most. -/
theorem div_lt_exponentOf (num : Nat) (hden : 0 < den) :
    (num / den : ℚ) < 2 ^ (exponentOf num den + 53) := by
  have hmono {a b : Int} (h : a ≤ b) : (2 : ℚ) ^ a ≤ 2 ^ b := zpow_le_zpow_right₀ (by norm_num) h
  rw [exponentOf_eq]
  split
  · rename_i hlt
    rw [shifted_lt_two_pow_iff hden] at hlt
    exact hlt.trans_le (hmono (by omega))
  · exact (div_lt_two_zpow hden).trans_le (hmono (by omega))

/-- It has 53 bits, unless the number is too small for that. -/
theorem exponentOf_le_div (hnum : 0 < num) (hden : 0 < den) :
    exponentOf num den = -1074 ∨ (2 : ℚ) ^ (exponentOf num den + 52) ≤ num / den := by
  rw [exponentOf_eq]
  split
  · rcases Int.le_total ((num.log2 : Int) - den.log2 - 52 - 1) (-1074) with h | h
    · exact .inl (max_eq_right h)
    · rw [max_eq_left h]
      refine .inr (le_of_eq_of_le ?_ (two_zpow_le_div hnum hden))
      congr 1
      omega
  · rename_i hge
    rw [shifted_lt_two_pow_iff hden, not_lt] at hge
    rcases Int.le_total ((num.log2 : Int) - den.log2 - 52) (-1074) with h | h
    · exact .inl (max_eq_right h)
    · rw [max_eq_left h]
      exact .inr hge

/-! ## The word -/

/-- The positive number with the given fields. -/
def ofFields (f t : Nat) : Binary64 := ⟨UInt64.ofNat (f * 2 ^ 52 + t)⟩

theorem magnitudeBits_ofFields {f t : Nat} (hf : f < 2047) (ht : t < 2 ^ 52) :
    (ofFields f t).magnitudeBits = f * 2 ^ 52 + t := by
  unfold magnitudeBits ofFields
  rw [UInt64.toNat_ofNat']
  omega

theorem exponentField_ofFields {f t : Nat} (hf : f < 2047) (ht : t < 2 ^ 52) :
    (ofFields f t).exponentField = f := by
  rw [exponentField, magnitudeBits_ofFields hf ht]
  omega

theorem fraction_ofFields {f t : Nat} (hf : f < 2047) (ht : t < 2 ^ 52) :
    (ofFields f t).fraction = t := by
  rw [fraction, magnitudeBits_ofFields hf ht]
  omega

theorem isFinite_ofFields {f t : Nat} (hf : f < 2047) (ht : t < 2 ^ 52) :
    (ofFields f t).isFinite = true := by
  rw [isFinite, exponentField_ofFields hf ht]
  exact decide_eq_true (by omega)

theorem magnitude_ofFields {f t : Nat} (hf : f < 2047) (ht : t < 2 ^ 52) :
    (ofFields f t).magnitude =
      (if f = 0 then t else 2 ^ 52 + t : Nat) * 2 ^ (((max f 1 : Nat) : Int) - 1075) := by
  rw [magnitude, significand, exponent, exponentField_ofFields hf ht, fraction_ofFields hf ht]

/-- A significand `m` of 53 bits at the exponent `e - 1074`: its leading bit counts up the exponent
field. If it has 54 bits, it is a power of two and counts it up twice. -/
theorem ofFields_of_significand {e m : Nat} (hm : m ≤ 2 ^ 53) (hnormal : e = 0 ∨ 2 ^ 52 ≤ m)
    (hfits : e * 2 ^ 52 + m < 2047 * 2 ^ 52) :
    ∃ x, Binary64.mk (UInt64.ofNat (e * 2 ^ 52 + m)) = x ∧ x.isFinite = true ∧
      x.magnitude = m * 2 ^ ((e : Int) - 1074) := by
  refine ⟨_, rfl, ?_⟩
  rcases Nat.lt_or_ge m (2 ^ 52) with hsmall | hlarge
  · -- without a leading bit the number is subnormal
    have he : e = 0 := hnormal.resolve_right (by omega)
    subst he
    have hfields : Binary64.mk (UInt64.ofNat (0 * 2 ^ 52 + m)) = ofFields 0 m := rfl
    rw [hfields, magnitude_ofFields (by omega) hsmall]
    exact ⟨isFinite_ofFields (by omega) hsmall, rfl⟩
  · rcases Nat.lt_or_ge m (2 ^ 53) with hlt | hge
    · -- the leading bit counts up the exponent field
      have hfraction : m - 2 ^ 52 < 2 ^ 52 := by omega
      have hfields : Binary64.mk (UInt64.ofNat (e * 2 ^ 52 + m)) =
          ofFields (e + 1) (m - 2 ^ 52) := by
        rw [ofFields, show (e + 1) * 2 ^ 52 + (m - 2 ^ 52) = e * 2 ^ 52 + m by omega]
      have hsignificand : 2 ^ 52 + (m - 2 ^ 52) = m := by omega
      have hexponent : ((max (e + 1) 1 : Nat) : Int) - 1075 = (e : Int) - 1074 := by omega
      rw [hfields, magnitude_ofFields (by omega) hfraction, if_neg (Nat.succ_ne_zero e),
        hsignificand, hexponent]
      exact ⟨isFinite_ofFields (by omega) hfraction, rfl⟩
    · -- rounding up has carried, and no fraction is left
      have hfields : Binary64.mk (UInt64.ofNat (e * 2 ^ 52 + m)) = ofFields (e + 2) 0 := by
        rw [ofFields, show (e + 2) * 2 ^ 52 + 0 = e * 2 ^ 52 + m by omega]
      have hsignificand : (m : ℚ) = (2 ^ 52 + 0 : Nat) * 2 := by
        have hm : m = (2 ^ 52 + 0) * 2 := by omega
        exact_mod_cast hm
      have hexponent : ((max (e + 2) 1 : Nat) : Int) - 1075 = (e : Int) - 1074 + 1 := by omega
      rw [hfields, magnitude_ofFields (by omega) (Nat.two_pow_pos 52), if_neg (by omega),
        hexponent, hsignificand, two_zpow_add]
      exact ⟨isFinite_ofFields (by omega) (Nat.two_pow_pos 52), by ring⟩

/-! ## Rounding a ratio -/

theorem ofRatio_zero (den : Nat) : ofRatio 0 den = zero := if_pos rfl

theorem ofRatio_eq (hnum : 0 < num) :
    ofRatio num den =
      if (exponentOf num den + 1074).toNat * 2 ^ 52 +
          roundDiv (shifted num den (exponentOf num den)).1
            (shifted num den (exponentOf num den)).2 < 2047 * 2 ^ 52
        then ⟨UInt64.ofNat ((exponentOf num den + 1074).toNat * 2 ^ 52 +
          roundDiv (shifted num den (exponentOf num den)).1
            (shifted num den (exponentOf num den)).2)⟩
        else infinity := by
  rw [ofRatio, if_neg (Nat.ne_of_gt hnum)]
  unfold shifted
  simp only [show infinity.bits.toNat = 2047 * 2 ^ 52 from rfl]
  split <;> rfl

/-- The largest number is `(2 ^ 53 - 1) * 2 ^ 971`; up to there the exponent is 971 at most. -/
theorem exponentOf_le (hnum : 0 < num) (hden : 0 < den)
    (hbound : (num / den : ℚ) < (2 ^ 53 - 1 : Nat) * 2 ^ (971 : Int)) :
    exponentOf num den ≤ 971 := by
  rcases exponentOf_le_div hnum hden with h | h
  · omega
  · by_contra hgt
    have hmono : (2 : ℚ) ^ (53 + 971 : Int) ≤ 2 ^ (exponentOf num den + 52) :=
      zpow_le_zpow_right₀ (by norm_num) (by omega)
    have hpow : ((2 ^ 53 - 1 : Nat) : ℚ) ≤ 2 ^ (53 : Int) := by norm_num
    have hunit := mul_le_mul_of_nonneg_right hpow (two_zpow_pos 971).le
    rw [← two_zpow_add] at hunit
    exact absurd (h.trans_lt hbound) (not_lt.mpr (hunit.trans hmono))

/-- Rounding adds half a unit at most. -/
theorem roundDiv_shifted_le (num : Nat) (hden : 0 < den) (k : Int) :
    (roundDiv (shifted num den k).1 (shifted num den k).2 : ℚ) ≤ (num / den) / 2 ^ k + 1 / 2 := by
  have hround := roundDiv_mul_le (shifted num den k).1 (shifted num den k).2
  have hpos : (0 : ℚ) < (shifted num den k).2 := by exact_mod_cast shifted_snd_pos num hden k
  have hcast : 2 * (((shifted num den k).2 : ℚ) *
        roundDiv (shifted num den k).1 (shifted num den k).2) ≤
      2 * (shifted num den k).1 + (shifted num den k).2 := by exact_mod_cast hround
  rw [← shifted_div, ← sub_le_iff_le_add, le_div_iff₀ hpos]
  linarith

/-- **Rounding a ratio.** The result is finite unless the ratio lies beyond the largest number. It
exceeds the ratio by half a unit of its last place at most; this unit is `2 ^ k`, where the leading
bit of the ratio and of the result is that of `2 ^ (k + 52)`, unless both are tiny. -/
theorem ofRatio_spec (hnum : 0 < num) (hden : 0 < den)
    (hbound : (num / den : ℚ) < (2 ^ 53 - 1 : Nat) * 2 ^ (971 : Int)) :
    (ofRatio num den).isFinite = true ∧ ∃ k : Int,
      (ofRatio num den).magnitude ≤ num / den + 2 ^ (k - 1) ∧ (num / den : ℚ) < 2 ^ (k + 53) ∧
      (k = -1074 ∨
        2 ^ (k + 52) ≤ (ofRatio num den).magnitude ∧ (2 : ℚ) ^ (k + 52) ≤ num / den) := by
  have hlow := le_exponentOf num den
  have hhigh := exponentOf_le hnum hden hbound
  have hlt := div_lt_exponentOf num hden
  have hle := exponentOf_le_div hnum hden
  rw [ofRatio_eq hnum]
  generalize exponentOf num den = k at hlow hhigh hlt hle
  have hround := roundDiv_shifted_le num hden k
  generalize hm : roundDiv (shifted num den k).1 (shifted num den k).2 = m at hround
  have hm_le : m ≤ 2 ^ 53 := by
    rw [← hm]
    apply roundDiv_le
    rw [shifted_lt_iff hden, Nat.cast_pow, Nat.cast_two]
    rwa [Int.add_comm, two_zpow_add] at hlt
  have hnormal : k = -1074 ∨ 2 ^ 52 ≤ m := by
    refine hle.imp_right fun h => ?_
    rw [← hm]
    apply le_roundDiv (shifted_snd_pos num hden k)
    rw [← not_lt, shifted_lt_two_pow_iff hden, not_lt]
    exact h
  -- only at the largest exponent could the carry reach the field of infinity
  have hfits : (k + 1074).toNat * 2 ^ 52 + m < 2047 * 2 ^ 52 := by
    rcases Int.lt_or_eq_of_le hhigh with h | rfl
    · omega
    · have hm_lt : m ≤ 2 ^ 53 - 1 := by
        rw [← hm]
        exact roundDiv_le ((shifted_lt_iff hden _ _).mpr hbound)
      omega
  obtain ⟨x, hx, hfinite, hmagnitude⟩ := ofFields_of_significand hm_le
    (hnormal.imp_left fun h => by rw [h]; rfl) hfits
  have hexponent : (((k + 1074).toNat : Nat) : Int) - 1074 = k := by omega
  rw [hexponent] at hmagnitude
  rw [if_pos hfits, hx]
  refine ⟨hfinite, k, ?_, hlt, ?_⟩
  · have hunit := two_zpow_pos k
    calc x.magnitude = m * 2 ^ k := hmagnitude
      _ ≤ ((num / den) / 2 ^ k + 1 / 2) * 2 ^ k := mul_le_mul_of_nonneg_right hround hunit.le
      _ = num / den + 2 ^ (k - 1) := by
          rw [add_mul, div_mul_cancel₀ _ hunit.ne', zpow_sub_one₀ (by norm_num)]
          ring
  · rcases hle with hk | hle
    · exact .inl hk
    · refine hnormal.imp_right fun hm_ge => ⟨?_, hle⟩
      have hcast : (2 : ℚ) ^ (52 : Int) ≤ m := by exact_mod_cast hm_ge
      rw [hmagnitude, Int.add_comm, two_zpow_add]
      exact mul_le_mul_of_nonneg_right hcast (two_zpow_pos k).le

/-- A ratio of one at least grows by one part in `2 ^ 53` at most, and stays above one half. -/
theorem magnitude_ofRatio_of_one_le (hden : 0 < den) (hone : den ≤ num)
    (hbound : (num / den : ℚ) < (2 ^ 53 - 1 : Nat) * 2 ^ (971 : Int)) :
    (ofRatio num den).magnitude ≤ (num / den) * (1 + 1 / 2 ^ 53) ∧
      1 / 2 ≤ (ofRatio num den).magnitude := by
  have hdenq : (0 : ℚ) < den := by exact_mod_cast hden
  have honeq : (1 : ℚ) ≤ num / den := by
    rw [le_div_iff₀ hdenq, one_mul]
    exact_mod_cast hone
  obtain ⟨-, k, hle, hlt, hk⟩ := ofRatio_spec (hden.trans_le hone) hden hbound
  have hlarge : ¬ k = -1074 := by
    rintro rfl
    have htiny : (2 : ℚ) ^ (-1074 + 53 : Int) ≤ 2 ^ (0 : Int) :=
      zpow_le_zpow_right₀ (by norm_num) (by norm_num)
    rw [zpow_zero] at htiny
    exact absurd (honeq.trans_lt hlt) (not_lt.mpr htiny)
  obtain ⟨hmagnitude, hquotient⟩ := hk.resolve_left hlarge
  have hlow : (2 : ℚ) ^ (k + 53) = 2 ^ (k + 52) * 2 := by
    rw [show k + 53 = k + 52 + 1 by omega, two_zpow_add, zpow_one]
  have hhalf : (2 : ℚ) ^ (k - 1) = 2 ^ (k + 52) * (1 / 2 ^ 53) := by
    rw [show k - 1 = k + 52 + -53 by omega, two_zpow_add]
    norm_num
  constructor
  · calc (ofRatio num den).magnitude ≤ num / den + 2 ^ (k + 52) * (1 / 2 ^ 53) := hhalf ▸ hle
      _ ≤ num / den + (num / den) * (1 / 2 ^ 53) := by gcongr
      _ = (num / den) * (1 + 1 / 2 ^ 53) := by ring
  · linarith

/-- Whatever its size, a ratio less than doubles, but for one. -/
theorem magnitude_ofRatio_le (hnum : 0 < num) (hden : 0 < den)
    (hbound : (num / den : ℚ) < (2 ^ 53 - 1 : Nat) * 2 ^ (971 : Int)) :
    (ofRatio num den).magnitude ≤ 2 * (num / den) + 1 := by
  obtain ⟨-, k, hle, -, hk⟩ := ofRatio_spec hnum hden hbound
  have hquotient : (0 : ℚ) ≤ num / den := by positivity
  have hmono {a b : Int} (h : a ≤ b) : (2 : ℚ) ^ a ≤ 2 ^ b := zpow_le_zpow_right₀ (by norm_num) h
  rcases hk with hk | ⟨-, hk⟩
  · have htiny := hmono (show k - 1 ≤ 0 by omega)
    rw [zpow_zero] at htiny
    linarith
  · have hunit := hmono (show k - 1 ≤ k + 52 by omega)
    linarith

/-! ## Arithmetic -/

theorem magnitude_nonneg (x : Binary64) : 0 ≤ x.magnitude := by
  unfold magnitude
  positivity

theorem magnitude_zero : zero.magnitude = 0 := by
  have hsignificand : zero.significand = 0 := by decide
  rw [magnitude, hsignificand, Nat.cast_zero, zero_mul]

/-- A magnitude is positive with the numerator of its ratio. -/
theorem ratio_fst_pos_iff (x : Binary64) : 0 < x.ratio.1 ↔ 0 < x.magnitude := by
  have hden : (0 : ℚ) < x.ratio.2 := by exact_mod_cast x.ratio_snd_pos
  rw [← ratio_div, div_pos_iff_of_pos_right hden, Nat.cast_pos]

theorem mulMagnitude_div (x y : Binary64) :
    (((x.ratio.1 * y.ratio.1 : Nat) : ℚ) / (x.ratio.2 * y.ratio.2 : Nat)) =
      x.magnitude * y.magnitude := by
  rw [← ratio_div, ← ratio_div, Nat.cast_mul, Nat.cast_mul, div_mul_div_comm]

theorem divMagnitude_div (x y : Binary64) :
    (((x.ratio.1 * y.ratio.2 : Nat) : ℚ) / (x.ratio.2 * y.ratio.1 : Nat)) =
      x.magnitude / y.magnitude := by
  rw [← ratio_div, ← ratio_div, Nat.cast_mul, Nat.cast_mul, div_div_div_eq]

theorem isFinite_mulMagnitude {x y : Binary64}
    (hbound : x.magnitude * y.magnitude < (2 ^ 53 - 1 : Nat) * 2 ^ (971 : Int)) :
    (x.mulMagnitude y).isFinite = true := by
  unfold mulMagnitude
  rcases Nat.eq_zero_or_pos (x.ratio.1 * y.ratio.1) with hzero | hpos
  · rw [hzero, ofRatio_zero, isFinite_zero]
  · rw [← mulMagnitude_div] at hbound
    exact (ofRatio_spec hpos (Nat.mul_pos x.ratio_snd_pos y.ratio_snd_pos) hbound).1

theorem divMagnitude_spec {x y : Binary64} (hy : 0 < y.magnitude)
    (hbound : x.magnitude / y.magnitude < (2 ^ 53 - 1 : Nat) * 2 ^ (971 : Int)) :
    (x.divMagnitude y).isFinite = true ∧
      (x.divMagnitude y).magnitude ≤ 2 * (x.magnitude / y.magnitude) + 1 := by
  have hden : 0 < x.ratio.2 * y.ratio.1 := Nat.mul_pos x.ratio_snd_pos (y.ratio_fst_pos_iff.mpr hy)
  unfold divMagnitude
  rcases Nat.eq_zero_or_pos (x.ratio.1 * y.ratio.2) with hzero | hpos
  · rw [hzero, ofRatio_zero, magnitude_zero]
    have hquotient := div_nonneg x.magnitude_nonneg y.magnitude_nonneg
    exact ⟨isFinite_zero, by linarith⟩
  · rw [← divMagnitude_div] at hbound ⊢
    exact ⟨(ofRatio_spec hpos hden hbound).1, magnitude_ofRatio_le hpos hden hbound⟩

end WorkerPipeline.Binary64

import WorkerPipeline.Proofs.Binary64.Rounding
import WorkerPipeline.Proofs.Json.Literal

set_option autoImplicit false

/-! # How large a number is read

The word that is gathered from a literal, times its power of ten, is not more than what the literal
stands for (`decimal_le`). Scaling the word rounds three times, so the result is finite unless the
literal stands for about the largest number or more (`isSome_scale?`); and what is read is always a
number that can be written (`inRange_of_number?`).
-/

namespace WorkerPipeline

open Binary64

namespace Numeral

/-! ## Digits -/

theorem ofDigitChars_lt {ds : List Char} (h : ∀ c ∈ ds, c.isDigit = true) (word : Nat) :
    Nat.ofDigitChars 10 ds word < (word + 1) * 10 ^ ds.length := by
  induction ds generalizing word with
  | nil => simp
  | cons c ds ih =>
      have hdigit : c.toNat - '0'.toNat ≤ 9 := by
        have hc := h c List.mem_cons_self
        rw [Char.isDigit_iff_toNat] at hc
        have hnine : '9'.toNat = '0'.toNat + 9 := rfl
        omega
      have htail := ih (fun d hd => h d (List.mem_cons_of_mem c hd))
        (10 * word + (c.toNat - '0'.toNat))
      rw [Nat.ofDigitChars_cons, List.length_cons, Nat.pow_succ]
      calc Nat.ofDigitChars 10 ds (10 * word + (c.toNat - '0'.toNat))
          < (10 * word + (c.toNat - '0'.toNat) + 1) * 10 ^ ds.length := htail
        _ ≤ ((word + 1) * 10) * 10 ^ ds.length := Nat.mul_le_mul_right _ (by omega)
        _ = (word + 1) * (10 ^ ds.length * 10) := by
            rw [Nat.mul_assoc, Nat.mul_comm 10]

/-- What is gathered is what some of the digits come to, in the order of the text. -/
theorem gather_spec {word : Nat} (hword : word < UInt64.size) (ds : List Char) :
    (gather word ds).1 < UInt64.size ∧ ∃ taken, ds = taken ++ (gather word ds).2 ∧
      (gather word ds).1 = Nat.ofDigitChars 10 taken word := by
  induction ds generalizing word with
  | nil => exact ⟨hword, [], rfl, rfl⟩
  | cons c ds ih =>
      rw [gather]
      split
      · rename_i hnext
        obtain ⟨hlt, taken, hds, hgathered⟩ := ih hnext
        refine ⟨hlt, c :: taken, ?_, ?_⟩
        · rw [List.cons_append, ← hds]
        · rw [hgathered, Nat.ofDigitChars_cons]
      · exact ⟨hword, [], rfl, rfl⟩

/-- The exponent that a literal writes down. -/
def written (n : Numeral) : Int :=
  match n.exponent with
  | none => 0
  | some (negative, ds) =>
    if negative then -(Nat.ofDigitChars 10 ds 0 : Nat) else (Nat.ofDigitChars 10 ds 0 : Nat)

/-- The magnitude that a literal stands for. -/
def value (n : Numeral) : ℚ :=
  (Nat.ofDigitChars 10 (n.whole ++ n.fraction.getD []) 0 : Nat) *
    10 ^ (n.written - ((n.fraction.getD []).length : Int))

theorem decimal_eq (n : Numeral) :
    n.decimal = ((gather (gather 0 n.whole).1 (n.fraction.getD [])).1,
      n.written + ((gather 0 n.whole).2.length : Int) -
        ((n.fraction.getD []).length -
          (gather (gather 0 n.whole).1 (n.fraction.getD [])).2.length : Nat)) := rfl

theorem decimal_lt (n : Numeral) : n.decimal.1 < UInt64.size :=
  (gather_spec (gather_spec (Nat.two_pow_pos 64) n.whole).1 _).1

/-- **Dropping digits of the fraction** makes the magnitude no larger. -/
theorem decimal_le {n : Numeral} (hwhole : Nat.ofDigitChars 10 n.whole 0 < UInt64.size) :
    (n.decimal.1 : ℚ) * 10 ^ n.decimal.2 ≤ n.value := by
  obtain ⟨-, taken, hfraction, hword⟩ := gather_spec hwhole (n.fraction.getD [])
  rw [decimal_eq, value, gather_eq hwhole]
  simp only [List.length_nil, Nat.cast_zero, add_zero]
  generalize gather (Nat.ofDigitChars 10 n.whole 0) (n.fraction.getD []) = r at hfraction hword
  rw [hword, hfraction, Nat.ofDigitChars_append, Nat.ofDigitChars_append, List.length_append,
    Nat.add_sub_cancel]
  generalize Nat.ofDigitChars 10 taken (Nat.ofDigitChars 10 n.whole 0) = word
  -- the digits that are dropped could only have added to the word
  have hall : (word : ℚ) * 10 ^ r.2.length ≤ Nat.ofDigitChars 10 r.2 word := by
    rw [Nat.ofDigitChars_eq_ofDigitChars_zero]
    push_cast
    have hrest : (0 : ℚ) ≤ (Nat.ofDigitChars 10 r.2 0 : Nat) := Nat.cast_nonneg _
    linarith
  have hpos : (0 : ℚ) < 10 ^ (n.written - (taken.length + r.2.length : Nat)) :=
    zpow_pos (by norm_num) _
  calc (word : ℚ) * 10 ^ (n.written - taken.length)
      = word * 10 ^ r.2.length * 10 ^ (n.written - (taken.length + r.2.length : Nat)) := by
        rw [mul_assoc, ← zpow_natCast, ← zpow_add₀ (by norm_num)]
        congr 2
        push_cast
        ring
    _ ≤ _ := mul_le_mul_of_nonneg_right hall hpos.le

/-! ## Scaling -/

/-- A multiple of the unit that the largest numbers have. -/
theorem cast_mul_unit (m : Nat) : ((m * 2 ^ 971 : Nat) : ℚ) = m * 2 ^ (971 : Int) := by
  rw [Nat.cast_mul, Nat.cast_pow, Nat.cast_two]
  rfl

theorem lt_largest {q : ℚ} {n : Nat} (h : q ≤ n) (hn : n < (2 ^ 53 - 1) * 2 ^ 971) :
    q < (2 ^ 53 - 1 : Nat) * 2 ^ (971 : Int) := by
  rw [← cast_mul_unit]
  exact h.trans_lt (Nat.cast_lt.mpr hn)

theorem word_lt_largest {word : Nat} (h : word < UInt64.size) :
    (word / (1 : Nat) : ℚ) < (2 ^ 53 - 1 : Nat) * 2 ^ (971 : Int) := by
  rw [Nat.cast_one, div_one]
  exact lt_largest le_rfl (h.trans (by decide +kernel))

theorem isFinite_ofNat {word : Nat} (h : word < UInt64.size) :
    (Binary64.ofNat word).isFinite = true := by
  rcases Nat.eq_zero_or_pos word with rfl | hpos
  · rw [Binary64.ofNat_zero, isFinite_zero]
  · exact (ofRatio_spec hpos Nat.one_pos (word_lt_largest h)).1

theorem magnitude_ofNat_le {word : Nat} (h : word < UInt64.size) :
    (Binary64.ofNat word).magnitude ≤ word * (1 + 1 / 2 ^ 53) := by
  rcases Nat.eq_zero_or_pos word with rfl | hpos
  · rw [Binary64.ofNat_zero, magnitude_zero, Nat.cast_zero, zero_mul]
  · have hspec := (magnitude_ofRatio_of_one_le Nat.one_pos hpos (word_lt_largest h)).1
    rwa [Nat.cast_one, div_one] at hspec

theorem magnitude_tenTo {k : Nat} (hk : k ≤ 308) :
    (tenTo k).magnitude ≤ 10 ^ k * (1 + 1 / 2 ^ 53) ∧ 1 / 2 ≤ (tenTo k).magnitude := by
  have hpow {m : Nat} (hm : k ≤ m) : 10 ^ k ≤ 10 ^ m := Nat.pow_le_pow_right (by decide) hm
  have hone : 1 ≤ 10 ^ k := Nat.one_le_pow _ _ (by decide)
  have hspec := magnitude_ofRatio_of_one_le Nat.one_pos hone (by
    rw [Nat.cast_one, div_one]
    exact lt_largest le_rfl ((hpow hk).trans_lt (by decide +kernel)))
  rw [Nat.cast_one, div_one, Nat.cast_pow] at hspec
  exact hspec

/-- Below the largest number no power of ten is beyond `10 ^ 308`. -/
theorem exponent_le_of_bound {word : Nat} {e : Int} (hpos : 0 < word)
    (hbound : (word : ℚ) * 10 ^ e ≤ (2 ^ 53 - 4 : Nat) * 2 ^ (971 : Int)) : e ≤ 308 := by
  by_contra hlarge
  have hone : (1 : ℚ) ≤ word := by exact_mod_cast hpos
  have hten : ((10 ^ 309 : Nat) : ℚ) = 10 ^ (309 : Int) := by
    rw [Nat.cast_pow]
    rfl
  have hfar : (2 ^ 53 - 4 : Nat) * 2 ^ (971 : Int) < (10 : ℚ) ^ (309 : Int) := by
    rw [← cast_mul_unit, ← hten, Nat.cast_lt]
    decide +kernel
  refine absurd hbound (not_le.mpr (hfar.trans_le ?_))
  calc (10 : ℚ) ^ (309 : Int) ≤ 10 ^ e := zpow_le_zpow_right₀ (by norm_num) (by omega)
    _ ≤ word * 10 ^ e := le_mul_of_one_le_left (zpow_nonneg (by norm_num) e) hone

/-- The word, the power of ten and their product are rounded: three units to spare make up for the
first two. -/
theorem isFinite_mul_tenTo {word : Nat} {e : Int} (hword : word < UInt64.size) (hnonneg : 0 ≤ e)
    (hle : e ≤ 308) (hbound : (word : ℚ) * 10 ^ e ≤ (2 ^ 53 - 4 : Nat) * 2 ^ (971 : Int)) :
    ((Binary64.ofNat word).mulMagnitude (tenTo e.toNat)).isFinite = true := by
  apply isFinite_mulMagnitude
  have hten := (magnitude_tenTo (k := e.toNat) (by omega)).1
  rw [pow_toNat 10 hnonneg] at hten
  calc (Binary64.ofNat word).magnitude * (tenTo e.toNat).magnitude
      ≤ (word * (1 + 1 / 2 ^ 53)) * (10 ^ e * (1 + 1 / 2 ^ 53)) :=
        mul_le_mul (magnitude_ofNat_le hword) hten (magnitude_nonneg _) (by positivity)
    _ = word * 10 ^ e * (1 + 1 / 2 ^ 53) ^ 2 := by ring
    _ ≤ (2 ^ 53 - 4 : Nat) * 2 ^ (971 : Int) * (1 + 1 / 2 ^ 53) ^ 2 := by gcongr
    _ = ((2 ^ 53 - 4 : Nat) * (1 + 1 / 2 ^ 53) ^ 2) * 2 ^ (971 : Int) := by ring
    _ < (2 ^ 53 - 1 : Nat) * 2 ^ (971 : Int) :=
        mul_lt_mul_of_pos_right (by norm_num) (two_zpow_pos 971)

/-- **Scaling succeeds** unless the result is about the largest number or more. -/
theorem isSome_scale? {word : Nat} {e : Int} (hword : word < UInt64.size)
    (hbound : (word : ℚ) * 10 ^ e ≤ (2 ^ 53 - 4 : Nat) * 2 ^ (971 : Int)) :
    (scale? word e).isSome = true := by
  unfold scale?
  simp only
  split
  · rename_i hlarge
    split
    · rfl
    · rename_i hzero
      have hle := exponent_le_of_bound (Nat.pos_of_ne_zero hzero) hbound
      omega
  · split
    · rename_i hle hnonneg
      rw [if_pos (isFinite_mul_tenTo hword hnonneg (by omega) hbound)]
      rfl
    · split
      · rfl
      · split <;> rfl

/-- A quotient by a power of ten is finite and not much larger than the dividend. -/
theorem divMagnitude_tenTo {x : Binary64} {k : Nat} (hx : x.magnitude ≤ 2 ^ 68) (hk : k ≤ 308) :
    (x.divMagnitude (tenTo k)).isFinite = true ∧
      (x.divMagnitude (tenTo k)).magnitude ≤ 4 * x.magnitude + 1 := by
  have hhalf := (magnitude_tenTo hk).2
  have hquotient : x.magnitude / (tenTo k).magnitude ≤ 2 * x.magnitude := by
    rw [div_le_iff₀ (by linarith)]
    nlinarith [x.magnitude_nonneg]
  obtain ⟨hfinite, hle⟩ := divMagnitude_spec (x := x) (by linarith)
    (lt_largest (n := 2 ^ 69) (hquotient.trans (by push_cast; linarith)) (by decide +kernel))
  exact ⟨hfinite, by linarith⟩

/-- What scaling yields is finite. -/
theorem isFinite_of_scale? {word : Nat} {e : Int} {x : Binary64} (hword : word < UInt64.size)
    (h : scale? word e = some x) : x.isFinite = true := by
  have hnat := magnitude_ofNat_le hword
  have hcast : (word : ℚ) < 2 ^ 64 := by
    have hpow : word < 2 ^ 64 := hword
    exact_mod_cast hpow
  have hsmall : (Binary64.ofNat word).magnitude ≤ 2 ^ 65 := by linarith
  unfold scale? at h
  simp only at h
  split at h
  · split at h
    · cases h
      exact isFinite_zero
    · cases h
  · split at h
    · -- products are returned only if they are finite
      split at h
      · cases h
        assumption
      · cases h
    · split at h
      · cases h
        exact (divMagnitude_tenTo (by linarith) (by omega)).1
      · split at h
        · -- the first quotient is still small enough to be divided again
          cases h
          have hfirst := (divMagnitude_tenTo (k := 308) (hsmall.trans (by norm_num)) le_rfl).2
          exact (divMagnitude_tenTo (by linarith) (by omega)).1
        · cases h
          exact isFinite_zero

end Numeral

/-! ## What is read -/

theorem Binary64.isFinite_neg (x : Binary64) : x.neg.isFinite = x.isFinite := by
  have hbits : x.neg.magnitudeBits = x.magnitudeBits := by
    show (x.bits ^^^ 0x8000000000000000).toNat % 2 ^ 63 = x.bits.toNat % 2 ^ 63
    rw [UInt64.toNat_xor, Nat.xor_mod_two_pow]
    exact Nat.xor_zero _
  rw [isFinite, isFinite, exponentField, exponentField, hbits]

namespace Number

/-- An integer of 64 bits or a finite double. -/
def InRange : Number → Prop
  | .int i => -2 ^ 63 ≤ i ∧ i < 2 ^ 64
  | .float x => x.isFinite = true

/-- **What is read from a literal** is an integer of 64 bits or a finite double. -/
theorem inRange_of_number? {n : Numeral} {m : Number} (h : n.number? = some m) : m.InRange := by
  have hword := n.decimal_lt
  have hscaled {x : Binary64} (hx : Numeral.scale? n.decimal.1 n.decimal.2 = some x) :
      (Number.float (if n.negative then x.neg else x)).InRange := by
    have hfinite := Numeral.isFinite_of_scale? hword hx
    show (if n.negative then x.neg else x).isFinite = true
    split
    · rw [Binary64.isFinite_neg, hfinite]
    · exact hfinite
  have hmagnitude (h : (Numeral.scale? n.decimal.1 n.decimal.2).map
      (fun x => Number.float (if n.negative then x.neg else x)) = some m) : m.InRange := by
    obtain ⟨x, hx, rfl⟩ := Option.map_eq_some_iff.mp h
    exact hscaled hx
  unfold Numeral.number? at h
  simp only at h
  split at h
  · split at h
    · exact hmagnitude h
    · split at h
      · cases h
        exact ⟨by omega, by exact_mod_cast hword⟩
      · split at h
        · cases h
          show (Binary64.ofNat n.decimal.1).neg.isFinite = true
          rw [Binary64.isFinite_neg, Numeral.isFinite_ofNat hword]
        · cases h
          exact ⟨by omega, by omega⟩
  · exact hmagnitude h

end Number

end WorkerPipeline

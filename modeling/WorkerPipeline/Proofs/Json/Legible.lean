import WorkerPipeline.Proofs.Binary64.Shortest
import WorkerPipeline.Proofs.Json.Magnitude
import WorkerPipeline.Proofs.Json.RoundTrip

set_option autoImplicit false

/-! # Every number is legible

The text of a double is a literal that stands for the shortest decimal of the double. So it is
read as a number of about that size, which is finite: this is clear for all but the four largest
magnitudes, and those are computed. What is read may differ from the double in its last places and
is legible in its turn, so every number lasts (`InRange.lasts`).
-/

namespace WorkerPipeline

open Binary64

namespace Numeral

/-! ## The text of a decimal -/

/-- A literal with a text behind its sign, which stands for a magnitude and for no integer. -/
structure Writes (n : Numeral) (negative : Bool) (text : List Char) (v : ℚ) : Prop where
  wellFormed : n.WellFormed
  write : n.write = (if negative then ['-'] else []) ++ text
  whole : Nat.ofDigitChars 10 n.whole 0 < UInt64.size
  value : n.value = v
  isDecimal : n.fraction ≠ none ∨ n.exponent ≠ none

theorem isDigits_replicate_append {ds : List Char} (h : IsDigits ds) (k : Nat) :
    IsDigits (List.replicate k '0' ++ ds) where
  ne_nil := by simp [h.ne_nil]
  isDigit c hc := by
    rcases List.mem_append.mp hc with hc | hc
    · rw [List.eq_of_mem_replicate hc]
      rfl
    · exact h.isDigit c hc

theorem isDigits_append_replicate {ds : List Char} (h : IsDigits ds) (k : Nat) :
    IsDigits (ds ++ List.replicate k '0') where
  ne_nil := by simp [h.ne_nil]
  isDigit c hc := by
    rcases List.mem_append.mp hc with hc | hc
    · exact h.isDigit c hc
    · rw [List.eq_of_mem_replicate hc]
      rfl

theorem isDigits_take {ds : List Char} (h : IsDigits ds) {k : Nat} (hk : 0 < k) :
    IsDigits (ds.take k) where
  ne_nil := by
    rw [Ne, List.take_eq_nil_iff]
    exact fun hnil => hnil.elim (Nat.ne_of_gt hk) h.ne_nil
  isDigit c hc := h.isDigit c (List.mem_of_mem_take hc)

theorem isDigits_drop {ds : List Char} (h : IsDigits ds) {k : Nat} (hk : k < ds.length) :
    IsDigits (ds.drop k) where
  ne_nil := by
    rw [Ne, List.drop_eq_nil_iff]
    omega
  isDigit c hc := h.isDigit c (List.mem_of_mem_drop hc)

variable {ds : List Char}

/-- A number of up to 16 digits fits into a word. -/
theorem ofDigitChars_lt_size (h : ∀ c ∈ ds, c.isDigit = true) (hlength : ds.length ≤ 16) :
    Nat.ofDigitChars 10 ds 0 < UInt64.size := by
  have hlt := ofDigitChars_lt h 0
  have hpow : 10 ^ ds.length ≤ 10 ^ 16 := Nat.pow_le_pow_right (by decide) hlength
  have hsize : 10 ^ 16 < UInt64.size := by decide
  omega

theorem value_eq {n : Numeral} {v : Nat} {e : Int}
    (hdigits : Nat.ofDigitChars 10 (n.whole ++ n.fraction.getD []) 0 = v)
    (hexponent : n.written - ((n.fraction.getD []).length : Int) = e) :
    n.value = (v : ℚ) * 10 ^ e := by
  rw [Numeral.value, hdigits, hexponent]

/-- A literal with a point and without an exponent. -/
theorem writes_point {whole fraction : List Char} (hwhole : IsDigits whole)
    (hfraction : IsDigits fraction) (hleading : ∀ c left, whole ≠ '0' :: c :: left)
    (hlength : whole.length ≤ 16) (negative : Bool) :
    Writes ⟨negative, whole, some fraction, none⟩ negative (whole ++ '.' :: fraction)
      ((Nat.ofDigitChars 10 (whole ++ fraction) 0 : Nat) * 10 ^ (-fraction.length : Int)) where
  wellFormed := {
    whole := hwhole
    leading := hleading
    fraction := by
      rintro _ ⟨⟩
      exact hfraction
    exponent := by rintro _ ⟨⟩ }
  write := by simp [write, writeFraction, writeExponent]
  whole := ofDigitChars_lt_size hwhole.isDigit hlength
  value := value_eq rfl (by simp [written])
  isDecimal := .inl (by simp)

/-- **Positional notation** is a literal for the digits with the point at its place. -/
theorem exists_writes_positional (h : IsDigits ds) (hhead : ∀ left, ds ≠ '0' :: left)
    {point : Int} (hpoint : point ≤ 16) (negative : Bool) :
    ∃ n : Numeral, n.Writes negative (positional ds point)
      ((Nat.ofDigitChars 10 ds 0 : Nat) * 10 ^ (point - ds.length)) := by
  have hzero (word : Nat) : Nat.ofDigitChars 10 ['0'] word = 10 * word := rfl
  -- the first digit is no zero, so what begins with it has no superfluous zero in front
  have hleading {cs : List Char} (hcs : cs.head? = ds.head?) (c : Char) (left : List Char) :
      cs ≠ '0' :: c :: left := by
    rintro rfl
    obtain ⟨d, ds', rfl⟩ := List.exists_cons_of_ne_nil h.ne_nil
    exact hhead ds' (by rw [Option.some.inj hcs])
  unfold positional
  split
  · -- the digits stand behind the point, with zeros before them
    have hn := writes_point ⟨by simp, by simp⟩ (isDigits_replicate_append h (-point).toNat)
      (by simp) (by decide : ['0'].length ≤ 16) negative
    have hexponent : (-(List.replicate (-point).toNat '0' ++ ds).length : Int) =
        point - ds.length := by
      rw [List.length_append, List.length_replicate]
      omega
    rw [hexponent, Nat.ofDigitChars_append, Nat.ofDigitChars_append, hzero,
      Nat.ofDigitChars_replicate_zero, Nat.mul_zero] at hn
    exact ⟨_, hn⟩
  · rename_i hpos
    split
    · -- the digits stand before the point, with zeros behind them
      rename_i hlength
      have hlong : (ds ++ List.replicate (point.toNat - ds.length) '0').length ≤ 16 := by
        rw [List.length_append, List.length_replicate]
        omega
      have hfraction : IsDigits ['0'] := ⟨by simp, by simp⟩
      have hn := writes_point (isDigits_append_replicate h (point.toNat - ds.length)) hfraction
        (hleading (List.head?_append_of_ne_nil _ h.ne_nil)) hlong negative
      have hvalue : ((Nat.ofDigitChars 10
            (ds ++ List.replicate (point.toNat - ds.length) '0' ++ ['0']) 0 : Nat) : ℚ) *
            10 ^ (-['0'].length : Int) =
          (Nat.ofDigitChars 10 ds 0 : Nat) * 10 ^ (point - ds.length) := by
        have hexponent : point - ds.length = (point.toNat - ds.length : Nat) := by omega
        rw [hexponent, zpow_natCast, Nat.ofDigitChars_append, Nat.ofDigitChars_append, hzero,
          Nat.ofDigitChars_replicate_zero]
        simp only [List.length_singleton]
        push_cast
        ring
      exact ⟨_, hvalue ▸ hn⟩
    · -- the point stands among the digits
      rename_i hlength
      have hwhole := isDigits_take h (k := point.toNat) (by omega)
      have hlong : (ds.take point.toNat).length ≤ 16 := by
        rw [List.length_take]
        omega
      have hhead : (ds.take point.toNat).head? = ds.head? := by
        rw [List.head?_take, if_neg (by omega)]
      have hfraction := isDigits_drop h (k := point.toNat) (by omega)
      have hn := writes_point hwhole hfraction (hleading hhead) hlong negative
      have hexponent : (-(ds.drop point.toNat).length : Int) = point - ds.length := by
        rw [List.length_drop]
        omega
      rw [hexponent, List.take_append_drop] at hn
      exact ⟨_, hn⟩

/-- **Scientific notation** is a literal with one digit before the point. -/
theorem exists_writes_scientific (h : IsDigits ds) (e : Int) (negative : Bool) :
    ∃ n : Numeral, n.Writes negative (scientific ds e)
      ((Nat.ofDigitChars 10 ds 0 : Nat) * 10 ^ (e + 1 - ds.length)) := by
  have hlength : 0 < ds.length := List.length_pos_iff.mpr h.ne_nil
  refine ⟨⟨negative, ds.take 1, if ds.length ≤ 1 then none else some (ds.drop 1),
    some (decide (e < 0), Nat.toDigits 10 e.natAbs)⟩, ?_⟩
  have hwhole := isDigits_take h Nat.one_pos
  exact {
    wellFormed := {
      whole := hwhole
      leading := by
        intro c left heq
        have hone := congrArg List.length heq
        simp only [List.length_take, List.length_cons] at hone
        omega
      fraction := by
        intro ds' hds
        split at hds
        · cases hds
        · cases hds
          exact isDigits_drop h (by omega)
      exponent := by
        rintro _ ⟨⟩
        exact isDigits_toDigits _ }
    write := by
      unfold scientific
      split <;> simp [write, writeFraction, writeExponent]
    whole := by
      apply ofDigitChars_lt_size hwhole.isDigit
      rw [List.length_take]
      omega
    value := by
      have hwritten (b : Bool) (hb : b = decide (e < 0)) :
          (if b then -(e.natAbs : Int) else e.natAbs) = e := by
        subst hb
        by_cases he : e < 0 <;>
          simp only [he, decide_true, decide_false, if_true, Bool.false_eq_true, if_false] <;>
          omega
      refine value_eq ?_ ?_
      · split
        · rename_i hone
          rw [Option.getD_none, List.append_nil, List.take_of_length_le hone]
        · rw [Option.getD_some, List.take_append_drop]
      · simp only [written, Nat.ofDigitChars_ten_toDigits, hwritten _ rfl]
        split
        · simp only [Option.getD_none, List.length_nil]
          omega
        · simp only [Option.getD_some, List.length_drop]
          omega
    isDecimal := .inr (by simp) }

theorem exists_writes_decimal {d : Decimal} (hd : 0 < d.digits) (negative : Bool) :
    ∃ n : Numeral, n.Writes negative (d.render Json.decimalLayout)
      (d.digits * 10 ^ d.exponent) := by
  have h := isDigits_toDigits d.digits
  unfold Decimal.render
  simp only
  split
  · rename_i hlayout
    have hbound : d.exponent + (Nat.toDigits 10 d.digits).length - 1 < 16 := hlayout.2
    have hpoint : d.exponent + (Nat.toDigits 10 d.digits).length ≤ 16 := by omega
    obtain ⟨n, hn⟩ := exists_writes_positional h (toDigits_ne_zero hd) hpoint negative
    rw [Nat.ofDigitChars_ten_toDigits, Int.add_sub_cancel] at hn
    exact ⟨n, hn⟩
  · obtain ⟨n, hn⟩ := exists_writes_scientific h
      (d.exponent + (Nat.toDigits 10 d.digits).length - 1) negative
    rw [Nat.ofDigitChars_ten_toDigits, Int.sub_add_cancel, Int.add_sub_cancel] at hn
    exact ⟨n, hn⟩

/-! ## Reading the text -/

theorem number?_of_isDecimal {n : Numeral} (h : n.fraction ≠ none ∨ n.exponent ≠ none) :
    n.number? = (scale? n.decimal.1 n.decimal.2).map
      fun x => Number.float (if n.negative then x.neg else x) := by
  unfold number?
  simp only
  split
  · rename_i hfraction hexponent
    exact absurd h (by simp [hfraction, hexponent])
  · rfl

/-- A text is legible if what it stands for is a little smaller than the largest number. -/
theorem Writes.isSome_read? {n : Numeral} {negative : Bool} {text : List Char} {v : ℚ}
    (h : n.Writes negative text v) (hbound : v ≤ (2 ^ 53 - 4 : Nat) * 2 ^ (971 : Int)) :
    (Number.read? ((if negative then ['-'] else []) ++ text)).isSome = true := by
  have hscale := isSome_scale? n.decimal_lt ((decimal_le h.whole).trans (h.value ▸ hbound))
  rw [← h.write, Number.read?, scan?_write h.wellFormed]
  simp only [number?_of_isDecimal h.isDecimal, Option.isSome_map]
  exact hscale

end Numeral

namespace Number

theorem isLegible_iff {n : Number} : n.IsLegible ↔ (read? n.render).isSome = true := by
  unfold IsLegible reread
  cases read? n.render <;> simp

/-- A double of one of the largest magnitudes. -/
def largest (negative : Bool) (i : Nat) : Binary64 :=
  ⟨UInt64.ofNat ((if negative then 2 ^ 63 else 0) + (2047 * 2 ^ 52 - 1 - i))⟩

theorem isLegible_largest : ∀ i : Fin 4, ∀ negative : Bool,
    (Number.float (largest negative i)).IsLegible := by
  simp only [isLegible_iff]
  decide +kernel

theorem eq_largest {x : Binary64} (hfield : x.exponentField < 2047) (hexponent : ¬ x.exponent < 971)
    (hsignificand : ¬ x.significand + 4 < 2 ^ 53) : ∃ i : Fin 4, x = largest x.isNegative i := by
  have hfraction : x.fraction < 2 ^ 52 := Nat.mod_lt _ (Nat.two_pow_pos 52)
  have hfield' : x.exponentField = 2046 := by
    unfold exponent at hexponent
    omega
  rw [significand, if_neg (by omega)] at hsignificand
  -- only the last two bits of the fraction are open
  refine ⟨⟨2 ^ 52 - 1 - x.fraction, by omega⟩, ?_⟩
  have hbits : x.bits.toNat = (if x.isNegative then 2 ^ 63 else 0) +
      (2047 * 2 ^ 52 - 1 - (2 ^ 52 - 1 - x.fraction)) := by
    have hword := x.bits.toNat_lt
    unfold exponentField at hfield'
    unfold fraction at hfraction ⊢
    unfold magnitudeBits at hfield' hfraction ⊢
    unfold isNegative
    split <;> simp_all <;> omega
  rw [largest, ← hbits, UInt64.ofNat_toNat]

theorem render_float {x : Binary64} (hfinite : x.isFinite = true) (hzero : x.isZero = false) :
    (Number.float x).render =
      (if x.isNegative then ['-'] else []) ++ x.shortest.render Json.decimalLayout := by
  show x.render Json.decimalLayout = _
  unfold Binary64.render
  rw [hfinite, hzero]
  rfl

theorem isLegible_zero {x : Binary64} (hfinite : x.isFinite = true) (hzero : x.isZero = true) :
    (Number.float x).IsLegible := by
  have hrender : (Number.float x).render =
      (if x.isNegative then ['-'] else []) ++ ['0', '.', '0'] := by
    show x.render Json.decimalLayout = _
    unfold Binary64.render
    rw [hfinite, hzero]
    rfl
  rw [isLegible_iff, hrender]
  cases x.isNegative <;> decide +kernel

/-- The upper end of a number's interval, for all but the four largest magnitudes. -/
theorem interval_le {x : Binary64} (hexponent : x.exponent ≤ 971)
    (hsmall : x.exponent < 971 ∨ x.significand + 4 < 2 ^ 53) :
    (4 * x.significand + 2 : ℚ) * 2 ^ (x.exponent - 2) ≤
      (2 ^ 53 - 4 : Nat) * 2 ^ (971 : Int) := by
  have hmono {a b : Int} (h : a ≤ b) : (2 : ℚ) ^ a ≤ 2 ^ b := zpow_le_zpow_right₀ (by norm_num) h
  rcases hsmall with hexponent | hsignificand
  · have hcast : (x.significand : ℚ) < 2 ^ 53 := by exact_mod_cast x.significand_lt
    calc (4 * x.significand + 2 : ℚ) * 2 ^ (x.exponent - 2)
        ≤ (2 ^ 53 - 4 : Nat) * 2 ^ (3 : Int) * 2 ^ (968 : Int) := by
          apply mul_le_mul _ (hmono (by omega)) (two_zpow_pos _).le (by positivity)
          norm_num
          linarith
      _ = (2 ^ 53 - 4 : Nat) * 2 ^ (971 : Int) := by
          rw [mul_assoc, ← two_zpow_add]
          rfl
  · have hcast : (x.significand : ℚ) + 5 ≤ 2 ^ 53 := by exact_mod_cast hsignificand
    calc (4 * x.significand + 2 : ℚ) * 2 ^ (x.exponent - 2)
        ≤ (2 ^ 53 - 4 : Nat) * 2 ^ (2 : Int) * 2 ^ (969 : Int) := by
          apply mul_le_mul _ (hmono (by omega)) (two_zpow_pos _).le (by positivity)
          norm_num
          linarith
      _ = (2 ^ 53 - 4 : Nat) * 2 ^ (971 : Int) := by
          rw [mul_assoc, ← two_zpow_add]
          rfl

/-- **Every number in range is legible.** -/
theorem InRange.isLegible {n : Number} (h : n.InRange) : n.IsLegible := by
  cases n with
  | int i => exact (readsBack_int h.1 h.2).lasts.isLegible
  | float x =>
      have hfinite : x.isFinite = true := h
      cases hzero : x.isZero with
      | true => exact isLegible_zero hfinite hzero
      | false =>
          have hfield := exponentField_lt hfinite
          have hexponent : x.exponent ≤ 971 := by unfold exponent; omega
          by_cases hsmall : x.exponent < 971 ∨ x.significand + 4 < 2 ^ 53
          · obtain ⟨hpos, hle⟩ := shortest_spec hfinite hzero
            obtain ⟨numeral, hwrites⟩ := Numeral.exists_writes_decimal hpos x.isNegative
            rw [isLegible_iff, render_float hfinite hzero]
            exact hwrites.isSome_read? (hle.trans (interval_le hexponent hsmall))
          · rw [not_or] at hsmall
            obtain ⟨i, hx⟩ := eq_largest hfield hsmall.1 hsmall.2
            rw [hx]
            exact isLegible_largest i _

/-- What a number in range is read as is in range. -/
theorem InRange.reread {n : Number} (h : n.InRange) : n.reread.InRange := by
  have hread : read? n.render = some n.reread := h.isLegible
  unfold read? at hread
  split at hread
  · exact inRange_of_number? hread
  · cases hread

/-- **Every number lasts**, however often it is written and read. -/
theorem InRange.lasts {n : Number} (h : n.InRange) : n.Lasts :=
  lasts_of_invariant (p := InRange) (fun _ hn => hn.reread) (fun _ hn => hn.isLegible) h

end Number

end WorkerPipeline

import Mathlib.Algebra.Group.Int.Defs
import Mathlib.Data.List.TakeWhile
import WorkerPipeline.Json.Printer
import WorkerPipeline.Json.Reader

set_option autoImplicit false

/-! # Number literals inside a document

A literal ends where no further character can belong to it. In a document it is followed by a
comma or by a closing bracket, so what a literal is read as does not depend on where it stands
(`scan?_append`). The text of an integer of 64 bits is a literal that is read as the integer
(`readsBack_int`).
-/

namespace WorkerPipeline

namespace Numeral

/-- Nothing, or a text that begins with a comma or a closing bracket. -/
def IsBoundary (rest : List Char) : Prop := ∀ c ∈ rest.head?, c = ',' ∨ c = ']' ∨ c = '}'

theorem isBoundary_nil : IsBoundary [] := by
  intro c hc
  cases hc

theorem isBoundary_comma (rest : List Char) : IsBoundary (',' :: rest) := by
  intro c hc
  cases hc
  exact .inl rfl

theorem isBoundary_bracket (rest : List Char) : IsBoundary (']' :: rest) := by
  intro c hc
  cases hc
  exact .inr (.inl rfl)

theorem isBoundary_brace (rest : List Char) : IsBoundary ('}' :: rest) := by
  intro c hc
  cases hc
  exact .inr (.inr rfl)

/-- A boundary begins with none of the characters of a literal. -/
theorem IsBoundary.not_digit {rest : List Char} (h : IsBoundary rest) :
    ∀ c ∈ rest.head?, c.isDigit = false := by
  intro c hc
  rcases h c hc with rfl | rfl | rfl <;> rfl

/-! ## The parts of a literal -/

theorem takeWhile_append_of_head {p : Char → Bool} {rest : List Char}
    (h : ∀ c ∈ rest.head?, p c = false) (cs : List Char) :
    (cs ++ rest).takeWhile p = cs.takeWhile p := by
  induction cs with
  | nil =>
      cases rest with
      | nil => rfl
      | cons c rest => simp [h c rfl]
  | cons c cs ih => cases hc : p c <;> simp [hc, ih]

theorem dropWhile_append_of_head {p : Char → Bool} {rest : List Char}
    (h : ∀ c ∈ rest.head?, p c = false) (cs : List Char) :
    (cs ++ rest).dropWhile p = cs.dropWhile p ++ rest := by
  induction cs with
  | nil =>
      cases rest with
      | nil => rfl
      | cons c rest => simp [h c rfl]
  | cons c cs ih => cases hc : p c <;> simp [hc, ih]

/-- Adds characters to those that are left over. -/
def leave {α : Type} (rest : List Char) : Option (α × List Char) → Option (α × List Char) :=
  Option.map fun r => (r.1, r.2 ++ rest)

variable {rest : List Char}

theorem digits?_append (h : IsBoundary rest) (cs : List Char) :
    digits? (cs ++ rest) = leave rest (digits? cs) := by
  unfold digits?
  rw [takeWhile_append_of_head h.not_digit, dropWhile_append_of_head h.not_digit]
  cases cs.takeWhile Char.isDigit <;> rfl

theorem whole?_append (h : IsBoundary rest) (cs : List Char) :
    whole? (cs ++ rest) = leave rest (whole? cs) := by
  unfold whole?
  rw [digits?_append h]
  cases digits? cs with
  | none => rfl
  | some r =>
      obtain ⟨ds, left⟩ := r
      match ds with
      | [] => rfl
      | [c] => by_cases hc : c = '0' <;> simp [leave, hc]
      | c :: d :: ds => by_cases hc : c = '0' <;> simp [leave, hc]

theorem fraction?_append (h : IsBoundary rest) (cs : List Char) :
    fraction? (cs ++ rest) = leave rest (fraction? cs) := by
  cases cs with
  | nil =>
      cases rest with
      | nil => rfl
      | cons c rest =>
          rcases h c rfl with rfl | rfl | rfl <;> rfl
  | cons c cs =>
      by_cases hc : c = '.'
      · subst hc
        simp only [List.cons_append, fraction?, digits?_append h, leave, Option.map_map]
        rfl
      · simp [fraction?, hc, leave]

/-- The sign of an exponent, which may be missing. -/
def splitSign : List Char → Bool × List Char
  | '-' :: cs => (true, cs)
  | '+' :: cs => (false, cs)
  | cs => (false, cs)

theorem splitSign_append (h : IsBoundary rest) (cs : List Char) :
    splitSign (cs ++ rest) = ((splitSign cs).1, (splitSign cs).2 ++ rest) := by
  cases cs with
  | nil =>
      cases rest with
      | nil => rfl
      | cons c rest =>
          rcases h c rfl with rfl | rfl | rfl <;> rfl
  | cons c cs =>
      by_cases hminus : c = '-'
      · subst hminus; rfl
      · by_cases hplus : c = '+'
        · subst hplus; rfl
        · simp [splitSign, hminus, hplus]

theorem exponent?_letter {c : Char} (hc : c = 'e' ∨ c = 'E') (cs : List Char) :
    exponent? (c :: cs) =
      (digits? (splitSign cs).2).map fun r => (some ((splitSign cs).1, r.1), r.2) := by
  simp only [exponent?, if_pos hc]
  rfl

theorem exponent?_append (h : IsBoundary rest) (cs : List Char) :
    exponent? (cs ++ rest) = leave rest (exponent? cs) := by
  cases cs with
  | nil =>
      cases rest with
      | nil => rfl
      | cons c rest =>
          rcases h c rfl with rfl | rfl | rfl <;> rfl
  | cons c cs =>
      by_cases hc : c = 'e' ∨ c = 'E'
      · rw [List.cons_append, exponent?_letter hc, exponent?_letter hc, splitSign_append h,
          digits?_append h, leave, leave, Option.map_map, Option.map_map]
        rfl
      · simp [exponent?, hc, leave]

/-! ## The whole literal -/

/-- The sign of a literal: only a minus is one. -/
def splitMinus : List Char → Bool × List Char
  | '-' :: cs => (true, cs)
  | cs => (false, cs)

theorem scan?_eq (cs : List Char) :
    scan? cs = (whole? (splitMinus cs).2).bind fun w => (fraction? w.2).bind fun f =>
      (exponent? f.2).bind fun e => some (⟨(splitMinus cs).1, w.1, f.1, e.1⟩, e.2) := by
  rfl

theorem splitMinus_append {cs : List Char} (hcs : cs ≠ []) :
    splitMinus (cs ++ rest) = ((splitMinus cs).1, (splitMinus cs).2 ++ rest) := by
  obtain ⟨c, cs, rfl⟩ := List.exists_cons_of_ne_nil hcs
  by_cases hc : c = '-'
  · subst hc; rfl
  · simp [splitMinus, hc]

/-- **A literal is read alike wherever it stands.** -/
theorem scan?_append (h : IsBoundary rest) {cs : List Char} (hcs : cs ≠ []) :
    scan? (cs ++ rest) = leave rest (scan? cs) := by
  rw [scan?_eq, scan?_eq, splitMinus_append hcs, whole?_append h]
  cases whole? (splitMinus cs).2 with
  | none => rfl
  | some w =>
      show ((fraction? (w.2 ++ rest)).bind _) = _
      rw [fraction?_append h]
      cases hf : fraction? w.2 with
      | none => simp [leave, hf]
      | some f =>
          show ((exponent? (f.2 ++ rest)).bind _) = _
          rw [exponent?_append h]
          cases he : exponent? f.2 <;> simp [leave, hf, he]

/-- A literal begins with a minus or a digit. -/
theorem head_of_scan? {cs : List Char} {r : Numeral × List Char} (hs : scan? cs = some r) :
    ∃ c left, cs = c :: left ∧ (c = '-' ∨ c.isDigit = true) := by
  cases cs with
  | nil => cases hs
  | cons c left =>
      refine ⟨c, left, rfl, ?_⟩
      by_cases hminus : c = '-'
      · exact .inl hminus
      · cases hdigit : c.isDigit with
        | true => exact .inr rfl
        | false =>
            have hnone : whole? (c :: left) = none := by simp [whole?, digits?, hdigit]
            rw [scan?_eq] at hs
            simp [splitMinus, hminus, hnone] at hs

/-! ## Writing a literal -/

/-- At least one digit, and nothing else. -/
structure IsDigits (ds : List Char) : Prop where
  ne_nil : ds ≠ []
  isDigit : ∀ c ∈ ds, c.isDigit = true

theorem isDigits_toDigits (n : Nat) : IsDigits (Nat.toDigits 10 n) where
  ne_nil := Nat.toDigits_ne_nil
  isDigit _ hc := Nat.isDigit_of_mem_toDigits (by decide) (by decide) hc

/-- Digits are read up to what is no digit. -/
theorem IsDigits.digits?_append {ds : List Char} (h : IsDigits ds)
    (hrest : ∀ c ∈ rest.head?, c.isDigit = false) : digits? (ds ++ rest) = some (ds, rest) := by
  have htake : ds.takeWhile Char.isDigit = ds := List.takeWhile_eq_self_iff.mpr h.isDigit
  have hdrop : ds.dropWhile Char.isDigit = [] := List.dropWhile_eq_nil_iff.mpr h.isDigit
  rw [digits?, takeWhile_append_of_head hrest, dropWhile_append_of_head hrest, htake, hdrop]
  obtain ⟨c, cs, rfl⟩ := List.exists_cons_of_ne_nil h.ne_nil
  rfl

/-- The parts of a literal are as a text has them. -/
structure WellFormed (n : Numeral) : Prop where
  whole : IsDigits n.whole
  leading : ∀ c left, n.whole ≠ '0' :: c :: left
  fraction : ∀ ds, n.fraction = some ds → IsDigits ds
  exponent : ∀ e, n.exponent = some e → IsDigits e.2

def writeFraction : Option (List Char) → List Char
  | none => []
  | some ds => '.' :: ds

/-- The sign of an exponent is always written. -/
def writeExponent : Option (Bool × List Char) → List Char
  | none => []
  | some (negative, ds) => 'e' :: (if negative then '-' else '+') :: ds

/-- The text of a literal. -/
def write (n : Numeral) : List Char :=
  (if n.negative then ['-'] else []) ++ (n.whole ++ (writeFraction n.fraction ++
    writeExponent n.exponent))

theorem exponent?_write {e : Option (Bool × List Char)} (h : ∀ r, e = some r → IsDigits r.2) :
    exponent? (writeExponent e) = some (e, []) := by
  cases e with
  | none => rfl
  | some r =>
      obtain ⟨negative, ds⟩ := r
      have hdigits : digits? ds = some (ds, []) := by
        have happend : digits? (ds ++ []) = some (ds, []) := (h _ rfl).digits?_append (by simp)
        rwa [List.append_nil] at happend
      rw [writeExponent, exponent?_letter (.inl rfl)]
      cases negative <;> simp [splitSign, hdigits]

/-- An exponent begins with a letter. -/
theorem head_writeExponent (e : Option (Bool × List Char)) :
    ∀ c ∈ (writeExponent e).head?, c = 'e' := by
  cases e with
  | none => simp [writeExponent]
  | some r => simp [writeExponent]

theorem fraction?_write {f : Option (List Char)} (h : ∀ ds, f = some ds → IsDigits ds)
    (e : Option (Bool × List Char)) :
    fraction? (writeFraction f ++ writeExponent e) = some (f, writeExponent e) := by
  have hhead := head_writeExponent e
  cases f with
  | none =>
      rw [writeFraction, List.nil_append]
      cases hcs : writeExponent e with
      | nil => rfl
      | cons c cs =>
          rw [hcs] at hhead
          have hc : c = 'e' := hhead c rfl
          subst hc
          rfl
  | some ds =>
      have hdigits : digits? (ds ++ writeExponent e) = some (ds, writeExponent e) := by
        apply (h ds rfl).digits?_append
        intro c hc
        rw [hhead c hc]
        rfl
      rw [writeFraction, List.cons_append, fraction?, hdigits]
      rfl

theorem splitMinus_sign {ds : List Char} (h : IsDigits ds) (negative : Bool) (rest : List Char) :
    splitMinus ((if negative then ['-'] else []) ++ (ds ++ rest)) = (negative, ds ++ rest) := by
  cases negative with
  | true => rfl
  | false =>
      obtain ⟨c, cs, rfl⟩ := List.exists_cons_of_ne_nil h.ne_nil
      have hminus : c ≠ '-' := by
        rintro rfl
        exact absurd (h.isDigit '-' List.mem_cons_self) (by decide)
      simp [splitMinus, hminus]

/-- **The text of a literal** is scanned as the literal. -/
theorem scan?_write {n : Numeral} (h : n.WellFormed) : scan? n.write = some (n, []) := by
  -- the whole part ends at the point, at the exponent or at the end of the text
  have hhead : ∀ c ∈ (writeFraction n.fraction ++ writeExponent n.exponent).head?,
      c.isDigit = false := by
    intro c hc
    cases hf : n.fraction with
    | none =>
        rw [hf, writeFraction, List.nil_append] at hc
        rw [head_writeExponent _ c hc]
        rfl
    | some ds =>
        rw [hf] at hc
        cases hc
        rfl
  have hwhole : whole? (n.whole ++ (writeFraction n.fraction ++ writeExponent n.exponent)) =
      some (n.whole, writeFraction n.fraction ++ writeExponent n.exponent) := by
    rw [whole?, h.whole.digits?_append hhead]
    split
    · rename_i c left rest heq
      exact absurd (Prod.mk.inj (Option.some.inj heq)).1 (h.leading c left)
    · rfl
  rw [scan?_eq, write, splitMinus_sign h.whole]
  simp only [hwhole, fraction?_write h.fraction, exponent?_write h.exponent, Option.bind_some]

/-! ## Integers -/

/-- Only zero is written with a zero in front. -/
theorem toDigits_ne_zero {n : Nat} (hn : 0 < n) (left : List Char) :
    Nat.toDigits 10 n ≠ '0' :: left := by
  induction n using Nat.strongRecOn generalizing left with
  | ind n ih =>
      intro h
      by_cases hsmall : n < 10
      · rw [Nat.toDigits_of_lt_base hsmall] at h
        have hne : ∀ k < 10, 0 < k → Nat.digitChar k ≠ '0' := by decide
        exact hne n hsmall hn (List.cons.inj h).1
      · -- the first digit is that of the tenth part
        rw [Nat.toDigits_of_base_le (by omega) (by omega)] at h
        obtain ⟨d, ds, hds⟩ := List.exists_cons_of_ne_nil (@Nat.toDigits_ne_nil (n / 10) 10)
        rw [hds, List.cons_append] at h
        exact ih (n / 10) (by omega) (by omega) ds (by rw [hds, (List.cons.inj h).1])

theorem toDigits_ne_zero_cons (n : Nat) (c : Char) (left : List Char) :
    Nat.toDigits 10 n ≠ '0' :: c :: left := by
  rcases Nat.eq_zero_or_pos n with rfl | hn
  · rw [Nat.toDigits_zero]
    intro h
    cases h
  · exact toDigits_ne_zero hn _

theorem scan?_toDigits (n : Nat) (negative : Bool) :
    scan? ((if negative then ['-'] else []) ++ Nat.toDigits 10 n) =
      some (⟨negative, Nat.toDigits 10 n, none, none⟩, []) := by
  have hwell : (⟨negative, Nat.toDigits 10 n, none, none⟩ : Numeral).WellFormed := {
    whole := isDigits_toDigits n
    leading := toDigits_ne_zero_cons n
    fraction := nofun
    exponent := nofun }
  have hscan := scan?_write hwell
  rwa [write, writeFraction, writeExponent, List.append_nil, List.append_nil] at hscan

theorem le_ofDigitChars (ds : List Char) (word : Nat) : word ≤ Nat.ofDigitChars 10 ds word := by
  rw [Nat.ofDigitChars_eq_ofDigitChars_zero]
  have hpow : 0 < 10 ^ ds.length := Nat.pow_pos (by decide)
  have hmul := Nat.le_mul_of_pos_left word hpow
  omega

/-- Digits that fit are all gathered. -/
theorem gather_eq {ds : List Char} {word : Nat} (h : Nat.ofDigitChars 10 ds word < UInt64.size) :
    gather word ds = (Nat.ofDigitChars 10 ds word, []) := by
  induction ds generalizing word with
  | nil => simp [gather]
  | cons c ds ih =>
      rw [Nat.ofDigitChars_cons] at h ⊢
      have hnext := le_ofDigitChars ds (10 * word + (c.toNat - '0'.toNat))
      rw [gather]
      simp only [if_pos (Nat.lt_of_le_of_lt hnext h)]
      exact ih h

theorem decimal_digits {n : Nat} (h : n < UInt64.size) (negative : Bool) :
    (⟨negative, Nat.toDigits 10 n, none, none⟩ : Numeral).decimal = (n, 0) := by
  have hgather : gather 0 (Nat.toDigits 10 n) = (n, []) := by
    rw [gather_eq (by simpa using h), Nat.ofDigitChars_ten_toDigits]
  simp [decimal, hgather, gather]

end Numeral

namespace Number

/-- **An integer of 64 bits is read back.** -/
theorem readsBack_int {i : Int} (hlow : -2 ^ 63 ≤ i) (hhigh : i < 2 ^ 64) :
    (Number.int i).ReadsBack := by
  have hscan : Numeral.scan? (Number.int i).render =
      some (⟨decide (i < 0), Nat.toDigits 10 i.natAbs, none, none⟩, []) := by
    have h := Numeral.scan?_toDigits i.natAbs (decide (i < 0))
    simpa [Number.render] using h
  have hword : i.natAbs < UInt64.size := by
    show i.natAbs < 2 ^ 64
    omega
  have hdecimal := Numeral.decimal_digits hword (decide (i < 0))
  rw [ReadsBack, read?, hscan]
  simp only [Numeral.number?, hdecimal, ne_eq, not_true_eq_false, if_false]
  by_cases hneg : i < 0
  · have hfits : ¬ (i.natAbs = 0 ∨ 2 ^ 63 < i.natAbs) := by omega
    simp only [hneg, decide_true, Bool.not_true, Bool.false_eq_true, if_false, if_neg hfits]
    congr 2
    omega
  · simp only [hneg, decide_false, Bool.not_false, if_true]
    congr 2
    omega

end Number

end WorkerPipeline

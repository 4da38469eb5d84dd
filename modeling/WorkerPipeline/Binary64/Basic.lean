set_option autoImplicit false

/-! # Double-precision numbers by their bits

A `Binary64` is a word of 64 bits in the interchange format: a sign, an exponent field of 11
bits and a fraction of 52 bits. Its value, if finite, is a ratio of natural numbers with a sign;
products and quotients are the exact ratio rounded to the nearest number, ties to the even one.
No floating-point operation of the machine is involved, so every result can be computed in a
proof.
-/

namespace WorkerPipeline

-- Powers are those of the core library, whatever other powers are in scope.
attribute [local instance (high)] instPowNat

structure Binary64 where
  bits : UInt64
deriving DecidableEq, Inhabited

namespace Binary64

/-! ## The fields of the word -/

def isNegative (x : Binary64) : Bool := decide (2 ^ (63 : Nat) ≤ x.bits.toNat)

/-- The bits below the sign. They grow with the magnitude. -/
def magnitudeBits (x : Binary64) : Nat := x.bits.toNat % 2 ^ (63 : Nat)

def exponentField (x : Binary64) : Nat := x.magnitudeBits / 2 ^ (52 : Nat)

def fraction (x : Binary64) : Nat := x.magnitudeBits % 2 ^ (52 : Nat)

def isFinite (x : Binary64) : Bool := decide (x.exponentField ≠ 2047)

def isZero (x : Binary64) : Bool := decide (x.magnitudeBits = 0)

/-- The integer `m` in the magnitude `m * 2 ^ exponent`. -/
def significand (x : Binary64) : Nat :=
  if x.exponentField = 0 then x.fraction else 2 ^ (52 : Nat) + x.fraction

def exponent (x : Binary64) : Int := (max x.exponentField 1 : Nat) - 1075

/-- `n * 2 ^ e` as a quotient of natural numbers. -/
def scaled (n : Nat) (e : Int) : Nat × Nat :=
  if 0 ≤ e then (n * 2 ^ e.toNat, 1) else (n, 2 ^ (-e).toNat)

/-- The magnitude of a finite number, numerator and denominator. -/
def ratio (x : Binary64) : Nat × Nat := scaled x.significand x.exponent

/-! ## Rounding -/

/-- The integer nearest to a quotient; of two, the even one. -/
def roundDiv (num den : Nat) : Nat :=
  let q := num / den
  let r := num % den
  if den < 2 * r ∨ (2 * r = den ∧ q % 2 = 1) then q + 1 else q

/-- The exponent at which the significand of `num / den` has 53 bits, but none below that of the
smallest number. -/
def exponentOf (num den : Nat) : Int :=
  let k : Int := (num.log2 : Int) - den.log2 - 52
  let (n, d) := if 0 ≤ k then (num, den * 2 ^ k.toNat) else (num * 2 ^ (-k).toNat, den)
  max (if n < d * 2 ^ (52 : Nat) then k - 1 else k) (-1074)

def infinity : Binary64 := ⟨0x7FF0000000000000⟩

def zero : Binary64 := ⟨0⟩

/-- **Rounding a ratio.** The significand at the exponent found is rounded to an integer. A
significand that rounds up to `2 ^ 53` carries into the exponent field by itself, and a value
beyond the largest number is infinite. -/
def ofRatio (num den : Nat) : Binary64 :=
  if num = 0 then zero
  else
    let k := exponentOf num den
    let m := if 0 ≤ k then roundDiv num (den * 2 ^ k.toNat)
      else roundDiv (num * 2 ^ (-k).toNat) den
    let bits := (k + 1074).toNat * 2 ^ (52 : Nat) + m
    if bits < infinity.bits.toNat then ⟨UInt64.ofNat bits⟩ else infinity

def ofNat (n : Nat) : Binary64 := ofRatio n 1

instance (n : Nat) : OfNat Binary64 n := ⟨ofNat n⟩

/-! ## Arithmetic -/

def neg (x : Binary64) : Binary64 := ⟨x.bits ^^^ 0x8000000000000000⟩

def ofInt (i : Int) : Binary64 := if i < 0 then neg (ofNat i.natAbs) else ofNat i.natAbs

/-- The product of two magnitudes. -/
def mulMagnitude (x y : Binary64) : Binary64 :=
  ofRatio (x.ratio.1 * y.ratio.1) (x.ratio.2 * y.ratio.2)

/-- The quotient of two magnitudes. -/
def divMagnitude (x y : Binary64) : Binary64 :=
  ofRatio (x.ratio.1 * y.ratio.2) (x.ratio.2 * y.ratio.1)

/-- A key whose order is that of the values: both zeros have the key zero. -/
def orderKey (x : Binary64) : Int :=
  if x.isNegative then -(x.magnitudeBits : Int) else x.magnitudeBits

/-- Whether a finite number lies between two bounds, the lower one included. -/
def inRange (x low high : Binary64) : Bool :=
  x.isFinite && decide (low.orderKey ≤ x.orderKey) && decide (x.orderKey < high.orderKey)

@[simp] theorem isFinite_zero : zero.isFinite = true := by decide

theorem ofNat_zero : ofNat 0 = zero := by decide

end Binary64

end WorkerPipeline

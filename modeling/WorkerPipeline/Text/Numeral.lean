set_option autoImplicit false

/-! # Natural numbers in text

A count that a person types: an optional plus sign and decimal digits, leading zeros allowed.
-/

namespace WorkerPipeline.Text

/-- One digit or more. -/
def digits? (cs : List Char) : Option Nat :=
  if cs ≠ [] ∧ cs.all Char.isDigit then some (Nat.ofDigitChars 10 cs 0) else none

/-- The digits with or without a plus sign. -/
def count? : List Char → Option Nat
  | '+' :: cs => digits? cs
  | cs => digits? cs

/-- A number below the bound. -/
def countBelow? (bound : Nat) (s : String) : Option Nat :=
  (count? s.toList).filter fun n => decide (n < bound)

end WorkerPipeline.Text

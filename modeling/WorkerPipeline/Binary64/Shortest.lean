import WorkerPipeline.Binary64.Basic

set_option autoImplicit false

/-! # Shortest decimals

The decimal of a positive finite number is the one with the fewest digits that still rounds to
that number, and among those the nearest. The reals that round to `m * 2 ^ q` form an interval
around it; its ends belong to it if `m` is even, since ties go to the even significand. Going
from coarse to fine decimal grids, the first grid with a point in the interval has the fewest
digits, and if it has a point at all then one of the two neighbours of the number is one.
-/

namespace WorkerPipeline.Binary64

-- Powers are those of the core library, whatever other powers are in scope.
attribute [local instance (high)] instPowNat

/-- The decimal `digits * 10 ^ exponent`. -/
structure Decimal where
  digits : Nat
  exponent : Int
deriving DecidableEq

/-! ## The interval of a number -/

/-- The reals that round to a number, in quarters of its last place: between `low` and `high`,
with the ends if `closed`, in units of `2 ^ exponent`. -/
structure Interval where
  low : Nat
  centre : Nat
  high : Nat
  exponent : Int
  closed : Bool

/-- Below a power of two the numbers lie twice as close. -/
def interval (x : Binary64) : Interval where
  low := if x.fraction = 0 ∧ 1 < x.exponentField then 4 * x.significand - 1
    else 4 * x.significand - 2
  centre := 4 * x.significand
  high := 4 * x.significand + 2
  exponent := x.exponent - 2
  closed := x.significand % 2 == 0

/-- The size of a grid step `10 ^ k` against the unit of the interval, as a ratio. -/
def Interval.step (i : Interval) (k : Int) : Nat × Nat :=
  let (n, d) := if 0 ≤ k then (10 ^ k.toNat, 1) else (1, 10 ^ (-k).toNat)
  if 0 ≤ i.exponent then (n, d * 2 ^ i.exponent.toNat) else (n * 2 ^ (-i.exponent).toNat, d)

/-- Whether `n` grid steps, each of the size `step`, lie in the interval. -/
def Interval.holds (i : Interval) (step : Nat × Nat) (n : Nat) : Bool :=
  let at' := n * step.1
  if i.closed then decide (i.low * step.2 ≤ at') && decide (at' ≤ i.high * step.2)
  else decide (i.low * step.2 < at') && decide (at' < i.high * step.2)

/-! ## The search -/

/-- The point of one grid that is in the interval and nearest to its centre, if there is one; of
two equally near the even one. -/
def Interval.onGrid (i : Interval) (k : Int) : Option Nat :=
  let step := i.step k
  let below := i.centre * step.2 / step.1
  let above := below + 1
  let twiceRest := 2 * (i.centre * step.2 - below * step.1)
  let belowFirst := twiceRest < step.1 ∨ (twiceRest = step.1 ∧ below % 2 = 0)
  match 0 < below && i.holds step below, i.holds step above with
  | true, true => some (if belowFirst then below else above)
  | true, false => some below
  | false, true => some above
  | false, false => none

/-- Tries the grids `10 ^ k`, `10 ^ (k - 1)`, …, at most `fuel` of them. -/
def Interval.search (i : Interval) : Nat → Int → Decimal
  | 0, k => ⟨0, k⟩
  | fuel + 1, k =>
    match i.onGrid k with
    | some n => ⟨n, k⟩
    | none => i.search fuel (k - 1)

/-- The shortest decimal of a positive finite number. With `2 ^ b` the power of two at or below
the number, the first grid lies above it, and 22 grids reach past its seventeenth digit. -/
def shortest (x : Binary64) : Decimal :=
  let b : Int := (x.significand.log2 : Int) + x.exponent
  x.interval.search 22 ((b * 30103) / 100000 + 2)

end WorkerPipeline.Binary64

import WorkerPipeline.Binary64.Shortest
import WorkerPipeline.Json.Basic

set_option autoImplicit false

/-! # Number literals

Writing: an integer has its decimal digits, a double the shortest decimal that rounds to it.

Reading: the digits are gathered in a word of 64 bits. A literal without fraction and exponent
that fits is an integer. All else is the gathered word, rounded to a double, times or divided by
a power of ten, rounded again: digits that no longer fit only move the decimal point. So a literal
of many digits may be read as a neighbour of the nearest double; `Number.ReadsBack` says of a
number that this does not happen to its own text.
-/

namespace WorkerPipeline

-- Powers are those of the core library, whatever other powers are in scope.
attribute [local instance (high)] instPowNat

/-! ## Writing -/

/-- Where positional notation is used: for scientific exponents from `least` to below `bound`. -/
structure DecimalLayout where
  least : Int
  bound : Int

/-- Numbers from `0.00001` to below `1e+16` are written positionally. -/
def Json.decimalLayout : DecimalLayout := ⟨-5, 16⟩

namespace Binary64

/-- The digits with the decimal point after the first `point` of them, zeros filled in. -/
def positional (digits : List Char) (point : Int) : List Char :=
  if point ≤ 0 then '0' :: '.' :: List.replicate (-point).toNat '0' ++ digits
  else if digits.length ≤ point.toNat then
    digits ++ List.replicate (point.toNat - digits.length) '0' ++ ['.', '0']
  else digits.take point.toNat ++ '.' :: digits.drop point.toNat

/-- One digit before the point, the sign of the exponent always written. -/
def scientific (digits : List Char) (exponent : Int) : List Char :=
  digits.take 1 ++ (if digits.length ≤ 1 then [] else '.' :: digits.drop 1) ++
    'e' :: (if exponent < 0 then '-' else '+') :: Nat.toDigits 10 exponent.natAbs

def Decimal.render (layout : DecimalLayout) (d : Decimal) : List Char :=
  let digits := Nat.toDigits 10 d.digits
  let point := d.exponent + digits.length
  if layout.least ≤ point - 1 ∧ point - 1 < layout.bound then positional digits point
  else scientific digits (point - 1)

/-- The text of a double; a number that is not finite has none and is written `null`. -/
def render (layout : DecimalLayout) (x : Binary64) : List Char :=
  if !x.isFinite then ['n', 'u', 'l', 'l']
  else
    let sign := if x.isNegative then ['-'] else []
    if x.isZero then sign ++ ['0', '.', '0'] else sign ++ x.shortest.render layout

end Binary64

def Number.render : Number → List Char
  | .int i => (if i < 0 then ['-'] else []) ++ Nat.toDigits 10 i.natAbs
  | .float x => x.render Json.decimalLayout

/-! ## Reading -/

/-- The parts of a literal: `exponent` holds whether it is negative, and its digits. -/
structure Numeral where
  negative : Bool
  whole : List Char
  fraction : Option (List Char)
  exponent : Option (Bool × List Char)

namespace Numeral

/-- At least one digit, and what follows the digits. -/
def digits? (cs : List Char) : Option (List Char × List Char) :=
  match cs.takeWhile Char.isDigit with
  | [] => none
  | ds => some (ds, cs.dropWhile Char.isDigit)

/-- Digits without a superfluous zero in front. -/
def whole? (cs : List Char) : Option (List Char × List Char) :=
  match digits? cs with
  | some ('0' :: _ :: _, _) => none
  | r => r

def fraction? : List Char → Option (Option (List Char) × List Char)
  | '.' :: cs => (digits? cs).map fun (ds, rest) => (some ds, rest)
  | cs => some (none, cs)

def exponent? : List Char → Option (Option (Bool × List Char) × List Char)
  | c :: cs =>
    if c = 'e' ∨ c = 'E' then
      let (negative, cs) := match cs with
        | '-' :: cs => (true, cs)
        | '+' :: cs => (false, cs)
        | cs => (false, cs)
      (digits? cs).map fun (ds, rest) => (some (negative, ds), rest)
    else some (none, c :: cs)
  | [] => some (none, [])

/-- The literal at the beginning of a text, and what follows it. -/
def scan? (cs : List Char) : Option (Numeral × List Char) := do
  let (negative, cs) := match cs with
    | '-' :: cs => (true, cs)
    | cs => (false, cs)
  let (whole, cs) ← whole? cs
  let (fraction, cs) ← fraction? cs
  let (exponent, cs) ← exponent? cs
  return (⟨negative, whole, fraction, exponent⟩, cs)

/-- Adds digits to a word of 64 bits as long as they fit, and returns the digits left over. -/
def gather (word : Nat) : List Char → Nat × List Char
  | [] => (word, [])
  | c :: cs =>
    let next := 10 * word + (c.toNat - '0'.toNat)
    if next < UInt64.size then gather next cs else (word, c :: cs)

def tenTo (k : Nat) : Binary64 := .ofNat (10 ^ k)

/-- A word times a power of ten, if the result is finite. The powers of ten end at `10 ^ 308`;
what has to be divided by more is divided twice, and by more than that is zero. -/
def scale? (word : Nat) (exponent : Int) : Option Binary64 :=
  let f := Binary64.ofNat word
  if 308 < exponent then if word = 0 then some .zero else none
  else if 0 ≤ exponent then
    let x := f.mulMagnitude (tenTo exponent.toNat)
    if x.isFinite then some x else none
  else if -308 ≤ exponent then some (f.divMagnitude (tenTo (-exponent).toNat))
  else if -616 ≤ exponent then
    some ((f.divMagnitude (tenTo 308)).divMagnitude (tenTo (-exponent - 308).toNat))
  else some .zero

/-- The word and the power of ten that the digits of a literal come to. -/
def decimal (n : Numeral) : Nat × Int :=
  let (word, dropped) := gather 0 n.whole
  let fraction := n.fraction.getD []
  let (word, ignored) := gather word fraction
  let written : Int := match n.exponent with
    | none => 0
    | some (negative, ds) =>
      let e : Int := Nat.ofDigitChars 10 ds 0
      if negative then -e else e
  (word, written + dropped.length - (fraction.length - ignored.length : Nat))

/-- The number that a literal stands for, unless it is beyond the largest double. -/
def number? (n : Numeral) : Option Number :=
  let (word, exponent) := n.decimal
  let magnitude? := (scale? word exponent).map fun x =>
    Number.float (if n.negative then x.neg else x)
  match n.fraction, n.exponent with
  | none, none =>
    if exponent ≠ 0 then magnitude?
    else if !n.negative then some (.int word)
    else if word = 0 ∨ 2 ^ (63 : Nat) < word then some (.float (Binary64.ofNat word).neg)
    else some (.int (-word))
  | _, _ => magnitude?

end Numeral

/-- The number that a text is, all of it. -/
def Number.read? (cs : List Char) : Option Number :=
  match Numeral.scan? cs with
  | some (n, []) => n.number?
  | _ => none

/-- The text of the number is read as the number. -/
def Number.ReadsBack (n : Number) : Prop := Number.read? n.render = some n

instance (n : Number) : Decidable n.ReadsBack := inferInstanceAs (Decidable (_ = _))

end WorkerPipeline

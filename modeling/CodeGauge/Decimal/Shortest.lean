import CodeGauge.Decimal.Binary

/-!
# The fewest digits that read back

A magnitude owns the interval of reals that round to it, ends included when its mantissa is even.
`shortest` takes the coarsest decimal grid with a point in that interval, and of two such points the
nearer one; `Tie` says which of two equally near points is taken.
-/

namespace CodeGauge

namespace Decimal

/-- A power of ten. -/
def tenTo (n : Nat) : Nat := Nat.pow 10 n

/-- The decimal number `digits * 10 ^ exponent`. -/
structure Scaled where
  digits : Nat
  exponent : Int
  deriving DecidableEq

/-- Which of two neighbours an exact half goes to. -/
inductive Tie where
  | up
  | toEven
  deriving DecidableEq

/-- Whether the half above `lower` goes to `lower + 1`. -/
def Tie.goesUp : Tie → Nat → Bool
  | .up, _ => true
  | .toEven, lower => lower % 2 == 1

/-- Number of decimal digits, one for zero. -/
def digitCount (n : Nat) : Nat := (Nat.toDigits 10 n).length

/-- Decimal exponent of the first digit of a positive magnitude. -/
def leadingExponent (m : Magnitude) : Int :=
  if m.den ≤ m.num then (digitCount (m.num / m.den) : Int) - 1
  else
    let j := digitCount m.den - digitCount m.num
    if m.den ≤ tenTo j * m.num then -(j : Int) else -((j : Int) + 1)

/-- The interval of a magnitude, in quarters of its last binary place. -/
structure Bounds where
  low : Nat
  mid : Nat
  high : Nat
  closed : Bool

/-- Half a place to either side, a quarter below where the numbers below lie closer. -/
def Magnitude.bounds (m : Magnitude) : Bounds where
  low := 4 * m.mantissa - if m.tight then 1 else 2
  mid := 4 * m.mantissa
  high := 4 * m.mantissa + 2
  closed := m.mantissa % 2 == 0

/-- The multiples of `10 ^ exponent` in the interval that are neighbours of the magnitude: the
nearer one if there are two. -/
def onGrid? (tie : Tie) (m : Magnitude) (exponent : Int) : Option Nat :=
  let b := m.bounds
  -- one decimal step is `step` and one quarter of a binary place is `unit`, over one denominator
  let step := 4 * m.den * tenTo exponent.toNat
  let unit := tenTo (-exponent).toNat <<< m.exponent.toNat
  let inside (d : Nat) : Bool :=
    if b.closed then b.low * unit ≤ d * step && d * step ≤ b.high * unit
    else b.low * unit < d * step && d * step < b.high * unit
  let lower := b.mid * unit / step
  let below := b.mid * unit - lower * step
  let above := (lower + 1) * step - b.mid * unit
  match decide (0 < lower) && inside lower, inside (lower + 1) with
  | true, true =>
    some (if below < above then lower
      else if above < below then lower + 1
      else if tie.goesUp lower then lower + 1 else lower)
  | true, false => some lower
  | false, true => some (lower + 1)
  | false, false => none

/-- The first grid with a hit, from `exponent` downwards. -/
def firstGrid (tie : Tie) (m : Magnitude) : Nat → Int → Scaled
  | 0, exponent => ⟨0, exponent⟩
  | fuel + 1, exponent =>
    match onGrid? tie m exponent with
    | some d => ⟨d, exponent⟩
    | none => firstGrid tie m fuel (exponent - 1)

/-- Moves trailing zeros of the digits into the exponent. -/
def dropZeros : Nat → Scaled → Scaled
  | 0, s => s
  | fuel + 1, s =>
    if s.digits ≠ 0 ∧ s.digits % 10 = 0 then dropZeros fuel ⟨s.digits / 10, s.exponent + 1⟩ else s

/-- The shortest decimal that reads back as a magnitude. Seventeen digits always suffice. -/
def shortest (tie : Tie) (m : Magnitude) : Scaled :=
  if m.mantissa = 0 then ⟨0, 0⟩
  else
    let s := firstGrid tie m 18 (leadingExponent m)
    dropZeros (digitCount s.digits) s

end Decimal

end CodeGauge

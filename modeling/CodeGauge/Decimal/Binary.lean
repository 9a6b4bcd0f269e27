/-!
# The value of a floating-point number

A finite number is a sign and a magnitude `mantissa * 2 ^ exponent`, read off its bits; everything
written in this library about a number's digits starts from that pair, in exact arithmetic.
-/

namespace CodeGauge

namespace Decimal

/-- A magnitude `mantissa * 2 ^ exponent`. `tight` says that the gap to the next smaller number is
half the gap to the next larger one, as it is at a power of two. -/
structure Magnitude where
  mantissa : Nat
  exponent : Int
  tight : Bool
  deriving DecidableEq

/-- What a number is: not a number, an infinity, or a sign and a magnitude. -/
inductive Reading where
  | nan
  | infinite (negative : Bool)
  | finite (negative : Bool) (size : Magnitude)
  deriving DecidableEq

/-- The reading of a number's 64 bits: sign, eleven bits of exponent, 52 bits of fraction. -/
def Reading.ofBits (bits : Nat) : Reading :=
  let negative : Bool := bits >>> 63 == 1
  let exponent : Nat := (bits >>> 52) % 2048
  let fraction : Nat := bits % (1 <<< 52)
  if exponent = 2047 then
    if fraction = 0 then .infinite negative else .nan
  else if exponent = 0 then .finite negative ⟨fraction, -1074, false⟩
  else .finite negative
    ⟨fraction + (1 <<< 52), (exponent : Int) - 1075, decide (fraction = 0) && decide (1 < exponent)⟩

/-- The reading of a number. -/
def read (x : Float) : Reading := .ofBits x.toBits.toNat

namespace Magnitude

/-- Numerator of the magnitude as a fraction. -/
def num (m : Magnitude) : Nat := m.mantissa <<< m.exponent.toNat

/-- Denominator of the magnitude as a fraction: a power of two. -/
def den (m : Magnitude) : Nat := 1 <<< (-m.exponent).toNat

/-- Whether the magnitude is a whole number. -/
def isWhole (m : Magnitude) : Bool := m.num % m.den == 0

end Magnitude

end Decimal

/-- Whether a number has no fractional part; infinities and non-numbers are not whole. -/
def isWholeNumber (x : Float) : Bool :=
  match Decimal.read x with
  | .finite _ size => size.isWhole
  | _ => false

end CodeGauge

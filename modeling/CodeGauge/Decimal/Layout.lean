import CodeGauge.Decimal.Shortest

/-!
# Numbers as text

`plain` writes the shortest digits positionally, whatever their size; `exchange` writes them as a
data format does, with an exponent for very large and very small numbers; `fixed` rounds the exact
value to a number of places, halves to even.
-/

namespace CodeGauge

namespace Decimal

/-- The decimal digits of a number. -/
def digitChars (n : Nat) : List Char := Nat.toDigits 10 n

/-- Digits with a point before the last `places` of them. -/
def pointed (places n : Nat) : String :=
  let ds := digitChars n
  let ds := List.replicate (places + 1 - ds.length) '0' ++ ds
  let whole := ds.take (ds.length - places)
  if places = 0 then String.ofList whole
  else String.ofList (whole ++ '.' :: ds.drop (ds.length - places))

/-- A decimal written positionally, without a point when it is whole. -/
def Scaled.positional (s : Scaled) : String :=
  if 0 ≤ s.exponent then toString (s.digits * tenTo s.exponent.toNat)
  else pointed (-s.exponent).toNat s.digits

/-- Decimal exponent of the first digit. -/
def Scaled.leading (s : Scaled) : Int := s.exponent + digitCount s.digits - 1

def signed (negative : Bool) (text : String) : String := if negative then "-" ++ text else text

/-- The shortest digits, positionally: `3`, `2.5`, `-0`, `1000000000000000000000`. An exact tie
between two shortest forms goes away from zero. -/
def plain (x : Float) : String :=
  match read x with
  | .nan => "NaN"
  | .infinite negative => signed negative "inf"
  | .finite negative size => signed negative (shortest .up size).positional

/-- One digit before the point, the rest after it, and a signed exponent: `1.5e+300`. -/
def Scaled.scientific (s : Scaled) : String :=
  let point := match digitChars s.digits with
    | [] => ""
    | [d] => String.ofList [d]
    | d :: rest => String.ofList (d :: '.' :: rest)
  let sign := if s.leading < 0 then "e-" else "e+"
  point ++ sign ++ toString s.leading.natAbs

/-- Numbers in a data format: positional with at least one decimal place from `1e-5` up to below
`1e16`, scientific otherwise; `none` for infinities and non-numbers. An exact tie between two
shortest forms goes to the even digit. -/
def exchange? (x : Float) : Option String :=
  match read x with
  | .nan | .infinite _ => none
  | .finite negative size =>
    let s := shortest .toEven size
    some <| signed negative <|
      if s.digits = 0 then "0.0"
      else if s.leading < -5 ∨ 16 ≤ s.leading then s.scientific
      else if 0 ≤ s.exponent then s.positional ++ ".0"
      else s.positional

/-- The quotient rounded to the nearest whole number. -/
def roundDiv (tie : Tie) (num den : Nat) : Nat :=
  let lower := num / den
  let twice := 2 * (num % den)
  if twice < den then lower
  else if den < twice then lower + 1
  else if tie.goesUp lower then lower + 1 else lower

/-- The exact value rounded to `places` decimals, halves to even. -/
def fixed (places : Nat) (x : Float) : String :=
  match read x with
  | .nan => "NaN"
  | .infinite negative => signed negative "inf"
  | .finite negative size =>
    signed negative (pointed places (roundDiv .toEven (size.num * tenTo places) size.den))

end Decimal

end CodeGauge

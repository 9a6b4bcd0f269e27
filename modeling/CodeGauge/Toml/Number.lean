import CodeGauge.Toml.Value

/-!
# Numbers

Integers in four bases and decimal fractions, with underscores between digits. Integers fit 64 bits
with sign; fractions are rounded to the nearest number, and one too large for any is refused.
-/

namespace CodeGauge

namespace Toml

/-- The rest of a run of digits, with single underscores between digits. -/
def moreDigits (p : Char → Bool) (found : List Char) :
    List Char → Option (List Char × List Char)
  | [] => some (found.reverse, [])
  | c :: rest =>
    if p c then moreDigits p (c :: found) rest
    else if c == '_' then
      match rest with
      | d :: rest => if p d then moreDigits p (d :: found) rest else none
      | [] => none
    else some (found.reverse, c :: rest)

/-- A run of at least one digit, and what follows it. -/
def digits? (p : Char → Bool) : List Char → Option (List Char × List Char)
  | c :: rest => if p c then moreDigits p [c] rest else none
  | [] => none

/-- A sign, and what follows it. -/
def sign : List Char → Bool × List Char
  | '-' :: rest => (true, rest)
  | '+' :: rest => (false, rest)
  | cs => (false, cs)

/-- The digits of a decimal integer: a zero, or digits that start with none. -/
def decimal? : List Char → Option (List Char × List Char)
  | '0' :: rest => some (['0'], rest)
  | cs => digits? isDigit cs

/-- An integer that fits 64 bits with sign. -/
def fit? (negative : Bool) (size : Nat) : Option Int :=
  if negative then if size ≤ 1 <<< 63 then some (-(size : Int)) else none
  else if size < 1 <<< 63 then some size else none

/-- An integer in some base, and what follows it. -/
def integer? (cs : List Char) : Option (Int × List Char) :=
  let based (base : Nat) (p : Char → Bool) (digits : List Char) : Option (Int × List Char) := do
    let (ds, rest) ← digits? p digits
    return (← fit? false (ofDigits base ds), rest)
  match cs with
  | '0' :: 'x' :: rest => based 16 isHexDigit rest
  | '0' :: 'o' :: rest => based 8 (fun c => '0' ≤ c && c ≤ '7') rest
  | '0' :: 'b' :: rest => based 2 (fun c => c == '0' || c == '1') rest
  | _ => do
    let (negative, cs) := sign cs
    let (ds, rest) ← decimal? cs
    return (← fit? negative (ofDigits 10 ds), rest)

/-- The number nearest to `digits * 10 ^ exponent`. Exponents beyond all numbers are not computed
with. -/
def nearest (digits : Nat) (exponent : Int) : Float :=
  let leading := exponent + (Nat.toDigits 10 digits).length
  if digits = 0 ∨ leading < -400 then 0
  else if 400 < leading then 1.0 / 0.0
  else if 0 ≤ exponent then Float.ofScientific digits false exponent.toNat
  else Float.ofScientific digits true (-exponent).toNat

/-- The exponent of a fraction, and what follows it. -/
def exponent? : List Char → Option (Int × List Char)
  | e :: rest =>
    if e == 'e' || e == 'E' then do
      let (negative, rest) := sign rest
      let (ds, rest) ← digits? isDigit rest
      let size : Int := ofDigits 10 ds
      return (if negative then -size else size, rest)
    else none
  | [] => none

/-- Infinity or not a number, without sign, and what follows it. -/
def special? : List Char → Option (Float × List Char)
  | 'i' :: 'n' :: 'f' :: rest => some (1.0 / 0.0, rest)
  | 'n' :: 'a' :: 'n' :: rest => some (0.0 / 0.0, rest)
  | _ => none

/-- A fraction, an exponent or both behind a decimal integer, and what follows them. A positive
number too large is refused. -/
def fraction? (cs : List Char) : Option (Float × List Char) := do
  let (negative, cs) := sign cs
  let (whole, rest) ← decimal? cs
  let (part, exponent, rest) ← match rest with
    | '.' :: rest => do
      let (part, rest) ← digits? isDigit rest
      match rest with
      | 'e' :: _ | 'E' :: _ => do
        let (exponent, rest) ← exponent? rest
        pure (part, exponent, rest)
      | _ => pure (part, 0, rest)
    | rest => do
      let (exponent, rest) ← exponent? rest
      pure ([], exponent, rest)
  let size := nearest (ofDigits 10 (whole ++ part)) (exponent - part.length)
  if size.isInf && !negative then none
  else return (if negative then -size else size, rest)

/-- A number with a fraction, an exponent or a special value. -/
def float? (cs : List Char) : Option (Float × List Char) :=
  fraction? cs <|> do
    let (negative, cs) := sign cs
    let (value, rest) ← special? cs
    return (if negative then -value else value, rest)

end Toml

end CodeGauge

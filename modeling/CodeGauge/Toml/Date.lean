import CodeGauge.Toml.Value

/-!
# Dates and times

A date, a time, or both, the latter perhaps with an offset from universal time. A text that spells a
date may have wider times than a date that stands in a document.

A table with `dateKey` as its first key stands for the date that the text under the key spells,
whatever else it holds. A value that has such a table with anything else under the key is not valid.
-/

namespace CodeGauge

namespace Toml

/-- A number of two digits within bounds, and what follows it. -/
def twoDigits? (low high : Nat) : List Char → Option (List Char × List Char)
  | a :: b :: rest =>
    let n := ofDigits 10 [a, b]
    if isDigit a && isDigit b && low ≤ n && n ≤ high then some ([a, b], rest) else none
  | _ => none

def daysIn (year month : Nat) : Nat :=
  if month = 2 then
    if year % 4 = 0 ∧ (year % 100 ≠ 0 ∨ year % 400 = 0) then 29 else 28
  else if month = 4 ∨ month = 6 ∨ month = 9 ∨ month = 11 then 30
  else 31

/-- What follows a given character. -/
def expect? (c : Char) : List Char → Option (List Char)
  | d :: rest => if d = c then some rest else none
  | [] => none

/-- A day of the calendar, and what follows it. -/
def day? (cs : List Char) : Option (List Char × List Char) := do
  let (century, cs) ← twoDigits? 0 99 cs
  let (year, cs) ← twoDigits? 0 99 cs
  let (month, cs) ← twoDigits? 1 12 (← expect? '-' cs)
  let (day, cs) ← twoDigits? 1 31 (← expect? '-' cs)
  let year := century ++ year
  if ofDigits 10 day ≤ daysIn (ofDigits 10 year) (ofDigits 10 month) then
    return (year ++ '-' :: month ++ '-' :: day, cs)
  else none

/-- The fraction of a second, to nine digits and without trailing zeros, and what follows it. -/
def secondFraction (cs : List Char) : List Char × List Char :=
  match cs with
  | '.' :: d :: rest =>
    if isDigit d then
      let ds := ((d :: rest.takeWhile isDigit).take 9).reverse.dropWhile (· == '0')
      (if ds.isEmpty then [] else '.' :: ds.reverse, rest.dropWhile isDigit)
    else ([], cs)
  | _ => ([], cs)

/-- How far the parts of a time may go. -/
structure ClockLimits where
  hour : Nat
  offsetHour : Nat
  offsetMinute : Nat

/-- The limits in a document. -/
def ClockLimits.document : ClockLimits := ⟨23, 23, 59⟩

/-- The limits in a text. -/
def ClockLimits.text : ClockLimits := ⟨24, 99, 99⟩

/-- Minutes that an offset from universal time may have. -/
def longestOffset : Nat := 1440

/-- A number below a hundred as two digits. -/
def asTwoDigits (n : Nat) : List Char := [Nat.digitChar (n / 10), Nat.digitChar (n % 10)]

/-- A time of day, and what follows it. -/
def time? (limits : ClockLimits) (cs : List Char) : Option (List Char × List Char) := do
  let (hour, cs) ← twoDigits? 0 limits.hour cs
  let (minute, cs) ← twoDigits? 0 59 (← expect? ':' cs)
  let (second, cs) ← twoDigits? 0 60 (← expect? ':' cs)
  let (fraction, cs) := secondFraction cs
  return (hour ++ ':' :: minute ++ ':' :: second ++ fraction, cs)

/-- An offset from universal time, and what follows it. No offset has a plus sign. -/
def offset? (limits : ClockLimits) : List Char → Option (List Char × List Char)
  | c :: rest =>
    if c == 'Z' || c == 'z' then some (['Z'], rest)
    else if c == '+' || c == '-' then do
      let (hour, rest) ← twoDigits? 0 limits.offsetHour rest
      let (minute, rest) ← twoDigits? 0 limits.offsetMinute (← expect? ':' rest)
      let minutes := 60 * ofDigits 10 hour + ofDigits 10 minute
      let sign := if minutes = 0 then '+' else c
      if minutes ≤ longestOffset then
        return (sign :: asTwoDigits (minutes / 60) ++ ':' :: asTwoDigits (minutes % 60), rest)
      else none
    else none
  | [] => none

/-- The time of day behind a date, and what follows it. -/
def timeBehind? (limits : ClockLimits) : List Char → Option (List Char × List Char)
  | c :: rest => if c == 'T' || c == 't' || c == ' ' then time? limits rest else none
  | [] => none

/-- A date, a time or both, and what follows them. -/
def date? (limits : ClockLimits) (cs : List Char) : Option (String × List Char) :=
  match day? cs with
  | none => (time? limits cs).map fun (time, rest) => (String.ofList time, rest)
  | some (day, rest) =>
    match timeBehind? limits rest with
    | none => some (String.ofList day, rest)
    | some (time, rest) =>
      match offset? limits rest with
      | none => some (String.ofList (day ++ 'T' :: time), rest)
      | some (offset, rest) => some (String.ofList (day ++ 'T' :: time ++ offset), rest)

/-- The date that a whole text spells. -/
def spelledDate? (text : String) : Option String :=
  match date? .text text.toList with
  | some (date, []) => some date
  | _ => none

/-! ## Tables that stand for dates -/

/-- The key that marks a table as a date. -/
def dateKey : String := "$__toml_private_datetime"

mutual

/-- A value with dates in place of the tables that stand for them, if it is valid. -/
def Value.withDates? : Value → Option Value
  | .array items => do return .array (← itemsWithDates? items)
  | .table [] => some (.table [])
  | .table ((key, value) :: rest) =>
    if key = dateKey then (value.text?.bind spelledDate?).map .date
    else do return .table ((key, ← value.withDates?) :: (← entriesWithDates? rest))
  | value => some value

/-- The items of an array, each with its dates. -/
def itemsWithDates? : List Value → Option (List Value)
  | [] => some []
  | value :: rest => do return (← value.withDates?) :: (← itemsWithDates? rest)

/-- The entries of a table, each with the dates of its value. -/
def entriesWithDates? : List (String × Value) → Option (List (String × Value))
  | [] => some []
  | (key, value) :: rest => do return (key, ← value.withDates?) :: (← entriesWithDates? rest)

end

end Toml

end CodeGauge

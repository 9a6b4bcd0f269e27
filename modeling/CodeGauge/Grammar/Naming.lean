import Std.Data.TreeSet
import CodeGauge.Tree.Node

/-!
# Names that are given once

Each declaration and scope of a file gets a name of its own: the name it asks for, or, when that is
taken, the name with the first free ordinal behind a dollar sign.
-/

namespace CodeGauge

/-- The names given out in a file. -/
abbrev TakenNames := Std.TreeSet String

namespace TakenNames

/-- A name with an ordinal. -/
def numbered (name : String) (ordinal : Nat) : String := name ++ "$" ++ toString ordinal

/-- The first free ordinal from `ordinal` on, after at most `tries` taken ones. -/
def firstFree (taken : TakenNames) (name : String) : Nat → Nat → Nat
  | 0, ordinal => ordinal
  | tries + 1, ordinal =>
    if taken.contains (numbered name ordinal) then firstFree taken name tries (ordinal + 1)
    else ordinal

/-- The name as given out. Among as many numbered names as there are taken ones, and one more, one
is free. -/
def free (taken : TakenNames) (name : String) : String :=
  if taken.contains name then numbered name (firstFree taken name taken.size 1) else name

end TakenNames

end CodeGauge

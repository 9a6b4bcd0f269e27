import CodeGauge.Text.Basic
import CodeGauge.Text.LowerCase

/-!
# Rolling up values

How the values of a type's operations become one value of the type. A sum starts at negative zero,
the neutral element of addition, so the sum of nothing is negative zero.
-/

namespace CodeGauge

/-- A way to reduce a list of values to one. -/
inductive Rollup where
  | sum
  | highest
  | average
  /-- Any mode without a reduction. -/
  | unsupported
  deriving DecidableEq

namespace Rollup

def name : Rollup → String
  | sum => "sum"
  | highest => "highest"
  | average => "average"
  | unsupported => "unsupported"

/-- The mode of exactly this name. -/
def ofName (text : String) : Rollup :=
  match text with
  | "sum" => sum
  | "highest" => highest
  | "average" => average
  | _ => unsupported

/-- The mode meant by a text, in any case, with blanks around it and under common other names. -/
def parse (text : String) : Rollup :=
  match Text.lowerCase (Text.trim text) with
  | "sum" => sum
  | "highest" | "max" => highest
  | "average" | "avg" | "mean" => average
  | _ => unsupported

/-- The value of a metric that does not apply. -/
def notANumber : Float := 0.0 / 0.0

def negativeInfinity : Float := -1.0 / 0.0

/-- The sum of values from left to right. -/
def total (values : List Float) : Float := values.foldl (· + ·) (-0.0)

/-- The larger of two values; the first if neither is larger. -/
def larger (a b : Float) : Float := if a < b then b else a

/-- The largest value, and zero when nothing is larger than negative infinity. -/
def largest (values : List Float) : Float :=
  let top := values.foldl larger negativeInfinity
  if top == negativeInfinity then 0 else top

/-- The mean of values, zero if there are none. -/
def mean (values : List Float) : Float :=
  if values.isEmpty then 0 else total values / Float.ofNat values.length

/-- Reduces values to one. -/
def reduce : Rollup → List Float → Float
  | sum, values => total values
  | highest, values => largest values
  | average, values => mean values
  | unsupported, _ => notANumber

end Rollup

end CodeGauge

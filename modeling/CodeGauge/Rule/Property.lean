import CodeGauge.Failure
import CodeGauge.Decimal.Layout

/-!
# Priorities and properties

A rule has a priority and named properties. A property's value is a number, a flag, a text or a list
of texts; a value of the wrong shape is a fault that names the rule and the property.
-/

namespace CodeGauge

/-- The importance of a rule, high to low. -/
inductive Priority where
  | high
  | mediumHigh
  | medium
  | mediumLow
  | low
  deriving DecidableEq

namespace Priority

/-- One for the highest priority, five for the lowest. -/
def level : Priority → Nat
  | high => 1
  | mediumHigh => 2
  | medium => 3
  | mediumLow => 4
  | low => 5

def ofLevel? : Nat → Option Priority
  | 1 => some high
  | 2 => some mediumHigh
  | 3 => some medium
  | 4 => some mediumLow
  | 5 => some low
  | _ => none

theorem ofLevel?_level (p : Priority) : ofLevel? p.level = some p := by cases p <;> rfl

def text (p : Priority) : String := toString p.level

/-- The priority of a level written in decimal digits, perhaps with a plus sign. -/
def ofText? (text : String) : Option Priority :=
  let digits := match text.toList with
    | '+' :: digits => digits
    | digits => digits
  if !digits.isEmpty && digits.all Char.isDigit then
    ofLevel? (digits.foldl (fun n d => n * 10 + (d.toNat - '0'.toNat)) 0)
  else none

end Priority

/-- A value given to a property of a rule. -/
inductive PropertyValue where
  | number (value : Float)
  | flag (value : Bool)
  | text (value : String)
  | list (items : List String)
  deriving DecidableEq

namespace PropertyValue

def asNumber? : PropertyValue → Option Float
  | number value => some value
  | _ => none

def asFlag? : PropertyValue → Option Bool
  | flag value => some value
  | _ => none

/-- The value in words. -/
def words : PropertyValue → String
  | number value => Decimal.plain value
  | flag value => if value then "true" else "false"
  | text value => value
  | list items => "[" ++ ", ".intercalate items ++ "]"

/-- The number of a property of a rule. -/
def numberFor (rule property : String) : PropertyValue → Except ConfigFault Float
  | number value => .ok value
  | _ => .error (.wrongShape rule property .number)

end PropertyValue

/-- A property that is a threshold. -/
def minimumProperty : String := "minimum"

end CodeGauge

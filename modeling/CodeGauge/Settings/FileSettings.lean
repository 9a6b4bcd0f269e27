import CodeGauge.Rule.Property
import CodeGauge.Toml.Date

/-!
# Settings in a file

What a configuration file sets, before any value is checked: two groups of settings and a table of
properties for each rule. Keys without a meaning are passed over; a known key with a value of the
wrong type makes the file ill-formed.
-/

namespace CodeGauge

/-- The value of a property as written in a file. -/
def PropertyValue.ofToml? : Toml.Value → Option PropertyValue
  | .integer n => some (.number (Float.ofInt n))
  | .float x => some (.number x)
  | .flag b => some (.flag b)
  | .text s => some (.text s)
  | value => value.texts?.map .list

/-- What one configuration file sets. Rules and their properties are in the order of their names. -/
structure FileSettings where
  language : Option String
  format : Option String
  quiet : Option Bool
  ruleSets : Option String
  minPriority : Option Nat
  aggregation : Option String
  includes : List String
  excludes : List String
  rules : List (String × List (String × Toml.Value))

namespace FileSettings

/-- The entries of a table, or of a date as a table with one key. -/
def entries? : Toml.Value → Option (List (String × Toml.Value))
  | .table entries => some entries
  | .date text => some [(Toml.dateKey, .text text)]
  | _ => none

/-- The settings of a group by name. An array gives them in the order of `names`; it has to give at
least `needed` of them. -/
def group? (names : List String) (needed : Nat) : Toml.Value → Option (List (String × Toml.Value))
  | .array items => if needed ≤ items.length then some (names.zip items) else none
  | value => entries? value

/-- A setting that may be missing, but not of another type. -/
def optional? {α : Type} (read : Toml.Value → Option α) (key : String)
    (entries : List (String × Toml.Value)) : Option (Option α) :=
  match entries.lookup key with
  | none => some none
  | some value => (read value).map some

/-- A list of texts, empty if it is missing. -/
def texts? (key : String) (entries : List (String × Toml.Value)) : Option (List String) :=
  (optional? Toml.Value.texts? key entries).map (·.getD [])

/-- A number from 0 to 255. -/
def octet? : Toml.Value → Option Nat
  | .integer n => if 0 ≤ n ∧ n < 256 then some n.toNat else none
  | _ => none

def defaultNames : List String :=
  ["lang", "format", "quiet", "rulesets", "min_priority", "aggregation"]

def targetNames : List String := ["include", "exclude"]

/-- Entries in the order of their keys. -/
def inOrder {α : Type} (entries : List (String × α)) : List (String × α) :=
  entries.mergeSort fun a b => a.1 ≤ b.1

/-- The properties in the table of a rule. -/
def properties? (table : Toml.Value) : Option (List (String × Toml.Value)) := do
  return inOrder (← Toml.entriesWithDates? (← entries? table))

/-- The property tables of rules. -/
def rules? (entries : List (String × Toml.Value)) :
    Option (List (String × List (String × Toml.Value))) :=
  (inOrder entries).mapM fun (rule, table) => do return (rule, ← properties? table)

/-- The settings in the table of a document. -/
def ofToml? (document : List (String × Toml.Value)) : Option FileSettings := do
  let basics := (← optional? (group? defaultNames 6) "defaults" document).getD []
  let targets := (← optional? (group? targetNames 0) "targeting" document).getD []
  let rules := (← optional? entries? "rules" document).getD []
  return {
    language := ← optional? Toml.Value.text? "lang" basics
    format := ← optional? Toml.Value.text? "format" basics
    quiet := ← optional? Toml.Value.flag? "quiet" basics
    ruleSets := ← optional? Toml.Value.text? "rulesets" basics
    minPriority := ← optional? octet? "min_priority" basics
    aggregation := ← optional? Toml.Value.text? "aggregation" basics
    includes := ← texts? "include" targets
    excludes := ← texts? "exclude" targets
    rules := ← rules? rules }

end FileSettings

end CodeGauge

import Std.Data.TreeMap
import CodeGauge.Path

/-!
# Where settings come from

Every layer that sets a key is remembered in the order of application, so a value can be shown
together with the layers it hides. The last layer is the one in effect.
-/

namespace CodeGauge

/-- A layer that sets values. -/
inductive Source where
  | builtIn
  | userFile (path : String)
  | projectFile (path : String)
  | environment (name : String)
  | option (name : String)
  deriving DecidableEq

namespace Source

/-- Whether the layer lies above the built-in values. -/
def isExplicit : Source → Bool
  | builtIn => false
  | _ => true

def words : Source → String
  | builtIn => "default"
  | userFile path => "user config (" ++ path ++ ")"
  | projectFile path => "project config (" ++ path ++ ")"
  | environment name => "env var (" ++ name ++ ")"
  | option name => "CLI flag (" ++ name ++ ")"

/-- Whether two layers are the same, files by their paths. -/
def same : Source → Source → Bool
  | builtIn, builtIn => true
  | userFile p, userFile q => Path.same p q
  | projectFile p, projectFile q => Path.same p q
  | environment m, environment n => m == n
  | option m, option n => m == n
  | _, _ => false

end Source

/-- The layers that set each key, the first application first. -/
structure Provenance where
  layers : Std.TreeMap String (List Source)

namespace Provenance

def empty : Provenance := ⟨∅⟩

/-- The layers that set a key. -/
def history (p : Provenance) (key : String) : List Source := p.layers.getD key []

/-- The layer in effect. -/
def get? (p : Provenance) (key : String) : Option Source := (p.history key).getLast?

/-- Records that a layer sets a key; the layer in effect is not recorded twice in a row. -/
def set (p : Provenance) (key : String) (source : Source) : Provenance :=
  if (p.get? key).any (·.same source) then p
  else ⟨p.layers.insert key (p.history key ++ [source])⟩

theorem history_set_self (p : Provenance) (key : String) (source : Source) :
    (p.set key source).history key =
      if (p.get? key).any (·.same source) then p.history key else p.history key ++ [source] := by
  unfold set
  by_cases h : (p.get? key).any (·.same source)
  · rw [if_pos h, if_pos h]
  · rw [if_neg h, if_neg h]
    exact Std.TreeMap.getD_insert_self

theorem history_set_of_ne (p : Provenance) {key other : String} (h : other ≠ key)
    (source : Source) : (p.set key source).history other = p.history other := by
  unfold set
  split
  · rfl
  · unfold history
    rw [Std.TreeMap.getD_insert, if_neg]
    intro hc
    exact h (Std.LawfulEqCmp.eq_of_compare hc).symm

/-- The explicit layers below the one in effect, from the top down. -/
def shadowed (p : Provenance) (key : String) : List Source :=
  ((p.history key).reverse.drop 1).filter (·.isExplicit)

/-- The keys that start with a text, each with its layer in effect, in the order of keys. -/
def entriesBelow (p : Provenance) (start : String) : List (String × Source) :=
  (p.layers.toList.filter fun e => start.toList.isPrefixOf e.1.toList).filterMap fun e =>
    e.2.getLast?.map fun source => (e.1, source)

/-- Every key with its layer in effect. -/
def entries (p : Provenance) : List (String × Source) := p.entriesBelow ""

/-- What the keys of a rule start with. -/
def ruleStart (rule : String) : String := "rules." ++ rule ++ "."

/-- The properties of a rule, each with its layer in effect. -/
def ruleEntries (p : Provenance) (rule : String) : List (String × Source) :=
  p.entriesBelow (ruleStart rule)

end Provenance

end CodeGauge

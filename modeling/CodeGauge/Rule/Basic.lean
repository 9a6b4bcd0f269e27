import CodeGauge.Rule.NodeCount
import CodeGauge.Rule.Threshold

/-!
# Rules

A rule either counts nodes or compares metric values with thresholds.
-/

namespace CodeGauge

/-- A configured rule. -/
inductive Rule where
  | count (rule : NodeCountRule)
  | threshold (rule : ThresholdRule)
  deriving DecidableEq

namespace Rule

def name : Rule → String
  | count r => r.name
  | threshold r => r.name

/-- The template of the rule's messages. -/
def message : Rule → String
  | count r => r.message
  | threshold r => r.message

def priority : Rule → Priority
  | count r => r.priority
  | threshold r => r.priority

def withPriority (priority : Priority) : Rule → Rule
  | count r => count { r with priority }
  | threshold r => threshold { r with priority }

/-- Sets a property of its own that the rule declares. -/
def setProperty (r : Rule) (property : String) (value : PropertyValue) :
    Except ConfigFault Rule :=
  match r with
  | count r => (r.setProperty property value).map count
  | threshold r => (r.setProperty property value).map threshold

/-- The findings of a rule on a tree, and the memo after them. -/
def apply (r : Rule) (root : Node) (memo : ProjectMemo) : List Finding × ProjectMemo :=
  match r with
  | count r => ((r.dataPoints root).map fun p => ⟨p.node, p.label, p.message⟩, memo)
  | threshold r => r.apply root memo

end Rule

end CodeGauge

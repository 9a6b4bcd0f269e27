import Std.Data.TreeMap
import CodeGauge.Rule.Basic
import CodeGauge.Text.Basic

/-!
# Rule sets

A list of identifiers resolves to rule sets: each identifier names a bundled set or one rule of it.
A rule that an earlier set brought in is dropped from later ones. An identifier that names nothing,
a fault in a rule's properties, or a list that leaves no rule fails the whole resolution.
-/

namespace CodeGauge

/-- A named list of configured rules. -/
structure RuleSet where
  name : String
  rules : List Rule

/-- The rule sets of a run, in the order they were asked for. -/
structure RuleSets where
  sets : List RuleSet

namespace RuleSets

def allRules (s : RuleSets) : List Rule := s.sets.flatMap (·.rules)

def ruleCount (s : RuleSets) : Nat := s.allRules.length

/-- Adds a set, without the rules that the sets before it have. -/
def add (s : RuleSets) (set : RuleSet) : RuleSets :=
  let loaded := s.allRules.map (·.name)
  ⟨s.sets ++ [{ set with rules := set.rules.filter fun r => !loaded.contains r.name }]⟩

end RuleSets

/-- Makes the rule set of an identifier. -/
abbrev RuleSetFactory := String → Except Failure RuleSet

/-- The identifiers in a list text: its parts between commas without blanks around them. -/
def identifiers (list : String) : List String :=
  ((list.splitOn ",").map Text.trim).filter (· ≠ "")

/-- The rule sets of a list of identifiers. -/
def resolveRuleSets (list : String) (factory : RuleSetFactory) : Except Failure RuleSets := do
  let sets ← (identifiers list).foldlM (fun sets id => return sets.add (← factory id)) ⟨[]⟩
  if sets.ruleCount = 0 then .error (.noRules list) else .ok sets

/-- The properties given to one rule, by name. -/
abbrev RuleProperties := Std.TreeMap String PropertyValue

/-- The rule sets that come with the library, configured for a run. -/
structure Bundle where
  /-- Rules less important than this are dropped. -/
  minPriority : Priority := .low
  /-- Properties by rule, applied over the bundled thresholds. -/
  properties : Std.TreeMap String RuleProperties := ∅

namespace Bundle

/-- Counting rules with their bundled thresholds. -/
def designRules : List Rule :=
  [.count { Design.excessiveImports with minimum := 30 },
    .count { Design.excessiveClassLength with minimum := 1000 },
    .count { Design.excessiveMethodCount with minimum := 10 },
    .count Design.excessiveParameterList]

def metricRules : List Rule :=
  [.threshold .cyclomaticComplexity, .threshold .ncssCount]

/-- The rules of a bundled set. -/
def rules? : String → Option (List Rule)
  | "design" => some designRules
  | "metrics" => some metricRules
  | "all" => some (designRules ++ metricRules)
  | _ => none

/-- The priority that a property value stands for. -/
def priorityOf? (value : PropertyValue) : Option Priority := do
  let x ← value.asNumber?
  if isWholeNumber x && decide (1 ≤ x) && decide (x ≤ 5) then
    Priority.ofLevel? x.toUInt8.toNat
  else none

/-- Applies properties to a rule in turn; `none` once the rule is switched off. -/
def configure (r : Rule) : List (String × PropertyValue) → Except ConfigFault (Option Rule)
  | [] => .ok (some r)
  | (property, value) :: rest =>
    if property = "enabled" then
      match value with
      | .flag true => configure r rest
      | .flag false => .ok none
      | _ => .error (.wrongShape r.name property .flag)
    else if property = "priority" then
      match priorityOf? value with
      | some priority => configure (r.withPriority priority) rest
      | none => .error (.wrongShape r.name property .level)
    else do configure (← r.setProperty property value) rest

/-- Rules configured and, if they are on and important enough, kept. -/
def finish (b : Bundle) : List Rule → Except ConfigFault (List Rule)
  | [] => .ok []
  | r :: rs => do
    let configured ← configure r (b.properties.getD r.name ∅).toList
    let kept := configured.toList.filter (·.priority.level ≤ b.minPriority.level)
    return kept ++ (← finish b rs)

/-- The rules that an identifier names: a bundled set, or one rule of it behind a slash. -/
def named? (identifier : String) : Option (List Rule) :=
  let cs := identifier.toList
  let set := String.ofList (cs.takeWhile (· != '/'))
  match cs.dropWhile (· != '/') with
  | [] => rules? identifier
  | _ :: rule => do
    let found ← (← rules? set).find? (·.name = String.ofList rule)
    return [found]

/-- The rule set of an identifier. -/
def factory (b : Bundle) : RuleSetFactory := fun identifier =>
  match named? identifier with
  | none => .error (.ruleSetNotFound identifier)
  | some rules => do
    let kept ← (b.finish rules).mapError Failure.config
    return ⟨identifier, kept⟩

end Bundle

end CodeGauge

import CodeGauge.Tree.TestMark
import CodeGauge.Metric.Catalog
import CodeGauge.Metric.Request
import CodeGauge.Rule.Property
import CodeGauge.Rule.Message

/-!
# Threshold rules

A threshold rule reports the operations whose metric is above its minimum, and the types whose value
is above another one. The complexity of a type is rolled up from its operations; its statements are
counted on the type itself. Values are requested through the project memo.
-/

namespace CodeGauge

/-- A node that a rule reports. -/
structure Finding where
  node : Node
  score : String
  message : String

/-- What a threshold rule measures. -/
inductive Measured where
  /-- Cyclomatic complexity, rolled up to types. -/
  | complexity (mode : Rollup)
  /-- Statements. -/
  | statements
  deriving DecidableEq

/-- A threshold rule. -/
structure ThresholdRule where
  name : String
  message : String
  measured : Measured
  minimum : Float
  typeMinimum : Float
  options : MetricOptions := ∅
  skipTests : Bool := false
  priority : Priority := .medium
  deriving DecidableEq

namespace ThresholdRule

def cyclomaticComplexity : ThresholdRule where
  name := "CyclomaticComplexity"
  message := "The \x7b0\x7d '\x7b1\x7d' has a cyclomatic complexity of \x7b2\x7d."
  measured := .complexity .sum
  minimum := 10
  typeMinimum := 80

def ncssCount : ThresholdRule where
  name := "NcssCount"
  message := "The \x7b0\x7d '\x7b1\x7d' has a NCSS line count of \x7b2\x7d."
  measured := .statements
  minimum := 60
  typeMinimum := 1500

/-- Sets a property. The roll-up can be set where there is one. -/
def setProperty (r : ThresholdRule) (property : String) (value : PropertyValue) :
    Except ConfigFault ThresholdRule :=
  match property, r.measured with
  | "aggregation", .complexity _ =>
    match value with
    | .text mode => .ok { r with measured := .complexity (Rollup.parse mode) }
    | _ => .error (.wrongShape r.name property .text)
  | "minimum", _ => do return { r with minimum := ← value.numberFor r.name property }
  | "class_minimum", _ => do return { r with typeMinimum := ← value.numberFor r.name property }
  | "skip_tests", _ =>
    match value with
    | .flag skip => .ok { r with skipTests := skip }
    | _ => .error (.wrongShape r.name property .flag)
  | "options", _ =>
    match value with
    | .list items => .ok { r with options := .ofList items }
    | .text item => .ok { r with options := .ofList [item] }
    | _ => .error (.wrongShape r.name property .optionNames)
  | _, _ => .error (.unknownProperty r.name property)

/-- Whole scores print without a fraction, others with two places. -/
def scoreLabel (value : Float) : String :=
  if isWholeNumber value then Decimal.plain value else Decimal.fixed 2 value

/-- The name a declaration is reported under. -/
def displayName (n : Node) : String := (n.name? <|> n.qualifiedName?).getD "<anonymous>"

/-- The finding on a declaration with a value. -/
def finding (r : ThresholdRule) (target : MetricTarget) (n : Node) (value : Float) : Finding :=
  let score := scoreLabel value
  ⟨n, score, Message.format r.message [target.name, displayName n, score]⟩

def skips (r : ThresholdRule) (n : Node) : Bool := r.skipTests && n.isTest

/-- The value of an operation. -/
def operationValue (r : ThresholdRule) (op : Node) (memo : ProjectMemo) : Float × ProjectMemo :=
  let metric : Metric Id := match r.measured with
    | .complexity _ => .operationComplexity
    | .statements => .operationStatements
  (metric.requestIn .operation op false r.options memo).run

/-- The value of a type. -/
def typeValue (r : ThresholdRule) (type : Node) (memo : ProjectMemo) : Float × ProjectMemo :=
  match r.measured with
  | .complexity mode =>
    let metric : Metric Id := .operationComplexity
    (metric.rollUp type.declaredOperations false r.options mode memo).run
  | .statements =>
    let metric : Metric Id := .typeStatements
    (metric.requestIn .type type false r.options memo).run

/-- The declarations whose value is above a minimum, requested in turn. -/
def above (r : ThresholdRule) (target : MetricTarget) (minimum : Float)
    (value : Node → ProjectMemo → Float × ProjectMemo) :
    List Node → ProjectMemo → List Finding × ProjectMemo
  | [], memo => ([], memo)
  | n :: ns, memo =>
    if r.skips n then above r target minimum value ns memo
    else
      let (v, memo) := value n memo
      let (findings, memo) := above r target minimum value ns memo
      (if minimum < v then r.finding target n v :: findings else findings, memo)

/-- The findings of a rule on a tree: operations, then types. -/
def apply (r : ThresholdRule) (root : Node) (memo : ProjectMemo) : List Finding × ProjectMemo :=
  let (onOperations, memo) := r.above .operation r.minimum r.operationValue
    (root.descendantsOfKind .operationDeclaration) memo
  let (onTypes, memo) := r.above .type r.typeMinimum r.typeValue
    (root.descendantsOfKind .typeDeclaration) memo
  (onOperations ++ onTypes, memo)

end ThresholdRule

end CodeGauge

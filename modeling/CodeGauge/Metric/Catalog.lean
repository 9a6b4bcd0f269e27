import CodeGauge.Tree.Walk
import CodeGauge.Metric.Key
import CodeGauge.Metric.Rollup

/-!
# The built-in metrics

Counts are taken as whole numbers and become values at the end. Lines, statements, complexity and
parameters are counted on single declarations; the weighted method count is the sum of the
complexities of a type's own operations.
-/

namespace CodeGauge

namespace Node

/-- Lines of a declaration, both ends included. Line numbers are 64-bit words, and so is this. -/
def lineCount (n : Node) : Nat := (UInt64.ofNat (n.span.extent + 1)).toNat

def isStatement (n : Node) : Bool := n.kind = .statement || n.kind = .branch

/-- Statements and branches below a declaration, and the declaration itself. -/
def statementCount (n : Node) : Nat := n.descendants.countP isStatement + 1

/-- Whether a node is a decision point; boolean operators are if they are counted. -/
def isDecision (countBoolean : Bool) (n : Node) : Bool :=
  n.kind = .branch || (countBoolean && n.kind = .booleanOperator)

/-- Decision points of an operation outside nested types, and its entry. -/
def complexity (countBoolean : Bool) (n : Node) : Nat :=
  (n.descendantsWithin .typeDeclaration).countP (isDecision countBoolean) + 1

/-- Parameters in the parameter lists of an operation. -/
def parameterCount (n : Node) : Nat :=
  ((n.childrenOfKind .parameterList).flatMap (·.childrenOfKind .parameter)).length

/-- Operations of a type, those of nested types too if they are counted. -/
def operationCount (countNested : Bool) (n : Node) : Nat :=
  if countNested then (n.descendantsOfKind .operationDeclaration).length
  else n.declaredOperations.length

end Node

namespace Metric

/-- Option of the complexity: boolean operators are no decision points. -/
def ignoreBooleanPaths : String := "ignore_boolean_paths"

/-- Option of the operation count: operations of nested types count too. -/
def countNested : String := "count_nested"

/-- The complexity of an operation under options. -/
def complexityValue (options : MetricOptions) (n : Node) : Float :=
  Float.ofNat (n.complexity !(options.contains ignoreBooleanPaths))

variable {m : Type → Type} [Pure m]

def typeLines : Metric m where
  name := "LOC"
  target := .type
  compute n _ := pure (Float.ofNat n.lineCount)

def typeStatements : Metric m where
  name := "NCSS"
  target := .type
  compute n _ := pure (Float.ofNat n.statementCount)

def typeOperations : Metric m where
  name := "NOM"
  target := .type
  compute n options := pure (Float.ofNat (n.operationCount (options.contains countNested)))

/-- The complexities of a type's own operations, added up. -/
def typeWeight : Metric m where
  name := "WMC"
  target := .type
  compute n options := pure (Rollup.total (n.declaredOperations.map (complexityValue options)))

def operationLines : Metric m where
  name := "LOC"
  target := .operation
  compute n _ := pure (Float.ofNat n.lineCount)

def operationStatements : Metric m where
  name := "NCSS"
  target := .operation
  compute n _ := pure (Float.ofNat n.statementCount)

def operationComplexity : Metric m where
  name := "CYCLO"
  target := .operation
  compute n options := pure (complexityValue options n)

/-- Parameters are counted where there is a parameter list. -/
def operationParameters : Metric m where
  name := "PARAMS"
  target := .operation
  compute n _ := pure (Float.ofNat n.parameterCount)
  accepts n := (n.firstChildOfKind? .parameterList).isSome

/-- The metrics of types. -/
def ofTypes : List (Metric m) := [typeLines, typeStatements, typeOperations, typeWeight]

/-- The metrics of operations. -/
def ofOperations : List (Metric m) :=
  [operationLines, operationStatements, operationComplexity, operationParameters]

end Metric

end CodeGauge

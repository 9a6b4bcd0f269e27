import Std.Data.TreeMap
import CodeGauge.Metric.Catalog
import CodeGauge.Metric.Request

/-!
# Metric listings

The metric values of every type of a file, with those of its operations, and of the operations
outside all types. Each type also has the complexity rolled up from its operations.
-/

namespace CodeGauge

/-- Metric values by name. -/
abbrev MetricValues := Std.TreeMap String Float

/-- The values of one operation. -/
structure OperationMetrics where
  name : String
  file : String
  firstLine : Nat
  lastLine : Nat
  metrics : MetricValues

/-- The values of one type and of its operations. -/
structure TypeMetrics extends OperationMetrics where
  operations : List OperationMetrics

/-- The listing of a file, or of several files. -/
structure Listing where
  types : List TypeMetrics
  functions : List OperationMetrics

namespace Listing

/-- The name a declaration is listed under. -/
def displayName (n : Node) : String :=
  (n.qualifiedName? <|> n.name?).getD ("<anonymous@" ++ toString n.firstLine ++ ">")

/-- The values of the metrics that support a declaration, requested in turn. -/
def values (target : MetricTarget) (n : Node) :
    List (Metric Id) → MetricValues → ProjectMemo → MetricValues × ProjectMemo
  | [], found, memo => (found, memo)
  | k :: ks, found, memo =>
    if k.supports n then
      let (value, memo) := (k.requestIn target n false ∅ memo).run
      values target n ks (found.insert k.name value) memo
    else values target n ks found memo

/-- A declaration with its values. -/
def entry (file : String) (n : Node) (metrics : MetricValues) : OperationMetrics :=
  ⟨displayName n, file, n.firstLine, n.lastLine, metrics⟩

/-- Operations with their values. -/
def operationEntries (file : String) : List Node → ProjectMemo → List OperationMetrics × ProjectMemo
  | [], memo => ([], memo)
  | op :: ops, memo =>
    let (found, memo) := values .operation op Metric.ofOperations ∅ memo
    let (rest, memo) := operationEntries file ops memo
    (entry file op found :: rest, memo)

/-- A type with its values and its operations. -/
def typeEntry (file : String) (mode : Rollup) (n : Node) (memo : ProjectMemo) :
    TypeMetrics × ProjectMemo :=
  let (found, memo) := values .type n Metric.ofTypes ∅ memo
  let complexity : Metric Id := Metric.operationComplexity
  let (rolled, memo) := (complexity.rollUp n.declaredOperations false ∅ mode memo).run
  let (ops, memo) := operationEntries file n.declaredOperations memo
  (⟨entry file n (found.insert complexity.name rolled), ops⟩, memo)

/-- Types with their values and operations. -/
def typeEntries (file : String) (mode : Rollup) :
    List Node → ProjectMemo → List TypeMetrics × ProjectMemo
  | [], memo => ([], memo)
  | n :: ns, memo =>
    let (found, memo) := typeEntry file mode n memo
    let (rest, memo) := typeEntries file mode ns memo
    (found :: rest, memo)

/-- The listing of a file's tree. -/
def collect (file : String) (root : Node) (mode : Rollup) (memo : ProjectMemo) :
    Listing × ProjectMemo :=
  let (types, memo) := typeEntries file mode (root.descendantsOfKind .typeDeclaration) memo
  let (functions, memo) := operationEntries file root.declaredOperations memo
  (⟨types, functions⟩, memo)

/-- The listings of several files as one. -/
def concat (listings : List Listing) : Listing :=
  ⟨listings.flatMap (·.types), listings.flatMap (·.functions)⟩

end Listing

end CodeGauge

import CodeGauge.Metric.Memo
import CodeGauge.Metric.Rollup

/-!
# Requests for metric values

A request looks a value up under its slot and computes it only when it is absent or recomputing is
forced. A metric requested on declarations that are not its target has no value, and asking leaves
no trace in the memo. A roll-up requests an operation metric on every supported operation of a type
and reduces the values that are numbers.
-/

namespace CodeGauge

namespace Metric

variable {m : Type → Type} [Monad m]

/-- The value under the metric's slot, computed and remembered if absent or forced. -/
def fetch (k : Metric m) (n : Node) (force : Bool) (options : MetricOptions) (memo : Memo) :
    m (Float × Memo) :=
  match if force then none else memo.get? (k.slot options) with
  | some value => pure (value, memo)
  | none => do
    let value ← k.compute n options
    pure (value, memo.put (k.slot options) value)

/-- A request on a declaration of the given target. -/
def request (target : MetricTarget) (k : Metric m) (n : Node) (force : Bool)
    (options : MetricOptions) (memo : Memo) : m (Float × Memo) :=
  if k.target = target then k.fetch n force options memo else pure (Rollup.notANumber, memo)

/-- A request on a declaration with the memo of its qualified name; a declaration without one is
computed afresh, and the value forgotten. -/
def requestIn (target : MetricTarget) (k : Metric m) (n : Node) (force : Bool)
    (options : MetricOptions) (project : ProjectMemo) : m (Float × ProjectMemo) :=
  match n.qualifiedName? with
  | some name => do
    let (value, memo) ← k.request target n force options (project.get target name)
    pure (value, project.set target name memo)
  | none => do
    let (value, _) ← k.request target n force options ∅
    pure (value, project)

/-- Requests on several operations in turn; the values that are numbers, in that order. -/
def requestAll (k : Metric m) (force : Bool) (options : MetricOptions) :
    List Node → ProjectMemo → m (List Float × ProjectMemo)
  | [], project => pure ([], project)
  | op :: ops, project => do
    let (value, project) ← k.requestIn .operation op force options project
    let (values, project) ← requestAll k force options ops project
    pure (if value.isNaN then values else value :: values, project)

/-- The value of an operation metric for a type with the given operations. -/
def rollUp (k : Metric m) (operations : List Node) (force : Bool) (options : MetricOptions)
    (mode : Rollup) (project : ProjectMemo) : m (Float × ProjectMemo) := do
  let (values, project) ← requestAll k force options (operations.filter k.supports) project
  pure (mode.reduce values, project)

end Metric

end CodeGauge

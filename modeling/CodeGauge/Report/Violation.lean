import CodeGauge.Path
import CodeGauge.Rule.Basic

/-!
# Reports

A report is a list of violations, most of the time those of one file. Sorting orders it by file,
line and rule, and keeps the order of violations that agree in all three; grouping gathers
neighbours whose files are the same path.
-/

namespace CodeGauge

/-- A rule firing on a node. -/
structure Violation where
  rule : String
  file : String
  firstLine : Nat
  lastLine : Nat
  /-- The qualified name of the node, if it is a declaration. -/
  declaration : Option QualifiedName
  score : String
  message : String
  priority : Priority
  deriving DecidableEq

namespace Violation

/-- The violation of a rule on a node of a file. -/
def on (file : String) (rule : Rule) (n : Node) (score message : String) : Violation where
  rule := rule.name
  file := file
  firstLine := n.firstLine
  lastLine := n.lastLine
  declaration := n.qualifiedName?
  score := score
  message := message
  priority := rule.priority

/-- Order by file, then line, then rule. -/
def compare : Violation → Violation → Ordering :=
  compareLex (fun a b => Path.compare a.file b.file)
    (compareLex (compareOn firstLine) (compareOn rule))

end Violation

/-- The violations attributed to a file, or those of several files merged. -/
structure Report where
  file : String
  violations : List Violation

namespace Report

/-- The empty report of a file. -/
def ofFile (file : String) : Report := ⟨file, []⟩

def ofViolations (violations : List Violation) : Report := ⟨"", violations⟩

/-- Adds the violation of a rule on a node of the report's file. -/
def add (r : Report) (rule : Rule) (n : Node) (score message : String) : Report :=
  { r with violations := r.violations ++ [.on r.file rule n score message] }

/-- Appends the violations of another report. -/
def merge (r other : Report) : Report :=
  { r with violations := r.violations ++ other.violations }

def sort (r : Report) : Report :=
  { r with violations := r.violations.mergeSort fun a b => (a.compare b).isLE }

/-- Neighbouring violations of one file, under the file's first spelling. -/
def group : List Violation → List (String × List Violation)
  | [] => []
  | v :: vs =>
    match group vs with
    | [] => [(v.file, [v])]
    | (file, items) :: groups =>
      if Path.same v.file file then (v.file, v :: items) :: groups
      else (v.file, [v]) :: (file, items) :: groups

/-- The violations grouped by file, in order. -/
def byFile (r : Report) : List (String × List Violation) := group r.violations

end Report

end CodeGauge

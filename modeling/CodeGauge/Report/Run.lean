import CodeGauge.Report.Violation
import CodeGauge.Rule.RuleSet

/-!
# Running rules

Every rule of a run is applied to a tree in turn; the rules share one memo.
-/

namespace CodeGauge

namespace RuleSets

/-- The violations of several rules on a tree, and the memo after them. -/
def applyAll (file : String) (root : Node) :
    List Rule → ProjectMemo → List Violation × ProjectMemo
  | [], memo => ([], memo)
  | rule :: rules, memo =>
    let (findings, memo) := rule.apply root memo
    let (rest, memo) := applyAll file root rules memo
    (findings.map (fun f => .on file rule f.node f.score f.message) ++ rest, memo)

/-- Adds the violations of every rule on a tree to a report. -/
def apply (s : RuleSets) (root : Node) (report : Report) (memo : ProjectMemo) :
    Report × ProjectMemo :=
  let (found, memo) := applyAll report.file root s.allRules memo
  (report.merge (.ofViolations found), memo)

/-- The report of one file, made with a memo of its own. -/
def reportOn (s : RuleSets) (file : String × Node) : Report :=
  (s.apply file.2 (.ofFile file.1) ∅).1

/-- The sorted report of several files. -/
def reportAll (s : RuleSets) (files : List (String × Node)) : Report :=
  ((files.map s.reportOn).foldl Report.merge (.ofViolations [])).sort

end RuleSets

end CodeGauge

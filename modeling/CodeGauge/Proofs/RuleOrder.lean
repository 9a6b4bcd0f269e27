import CodeGauge.Proofs.ConfiguredRules
import CodeGauge.Proofs.DirectRun
import CodeGauge.Proofs.EntryTotals
import CodeGauge.Proofs.ReportOrder

/-!
# Rules in any order

What a rule finds on a lowered tree does not depend on the rules that ran before it, and violations
that tie in a report come from one rule. So two lists of the same rules, each rule once, lead to
the same sorted report (`ties_perm`).

Resolved rules are told by their names, so two resolutions that have the same names have the same
rules, in orders that may differ (`perm_of_names`).
-/

namespace CodeGauge

/-- The violations of a rule on a tree of a file, every value computed on its node. -/
def Rule.directViolations (file : String) (root : Node) (rule : Rule) : List Violation :=
  (rule.directFindings root).map fun f => .on file rule f.node f.score f.message

section Order

variable (file : String) (root : Node)

theorem rule_of_mem_directViolations {rule : Rule} {v : Violation}
    (h : v ∈ rule.directViolations file root) : v.rule = rule.name := by
  obtain ⟨f, -, rfl⟩ := List.mem_map.1 h
  rfl

theorem ties_directViolations_of_ne {v : Violation} {rule : Rule} (h : v.rule ≠ rule.name) :
    ties Violation.compare v (rule.directViolations file root) = [] := by
  refine List.eq_nil_iff_forall_not_mem.2 fun w hw => ?_
  obtain ⟨hw, htie⟩ := (mem_ties Violation.compare).1 hw
  exact h ((Violation.rule_eq_of_compare htie).trans (rule_of_mem_directViolations file root hw))

/-- Rules of different names have no ties with each other, so they may run in any order. -/
theorem ties_perm (v : Violation) {rules others : List Rule}
    (h : rules.Perm others) (hd : (rules.map (·.name)).Nodup) :
    ties Violation.compare v (rules.flatMap (·.directViolations file root)) =
      ties Violation.compare v (others.flatMap (·.directViolations file root)) := by
  have hne := List.pairwise_map.1 hd
  refine ties_flatMap_perm Violation.compare _ v h (hne.imp fun {q r} hne => ?_)
  by_cases hq : v.rule = q.name
  · exact .inr (ties_directViolations_of_ne file root (hq.trans_ne hne))
  · exact .inl (ties_directViolations_of_ne file root hq)

end Order

theorem violations_reportOn_lower (language : Language) (bytes : ByteArray) (path : String)
    (root : Concrete) (s : RuleSets) (file : String) :
    (s.reportOn (file, lower language bytes path root)).violations =
      s.allRules.flatMap (·.directViolations file (lower language bytes path root)) :=
  (yields_applyAll (qualifiedNames_lower_nodup language bytes path root) file s.allRules ∅
    .empty).1

section Resolved

variable {b : Bundle} {list other : String} {sets others : RuleSets}
  (h : resolveRuleSets list b.factory = .ok sets)
  (hother : resolveRuleSets other b.factory = .ok others)

include h hother

theorem rules_subset_of_names
    (hnames : ∀ name ∈ sets.allRules.map (·.name), name ∈ others.allRules.map (·.name)) :
    sets.allRules ⊆ others.allRules := by
  intro r hr
  obtain ⟨q, hq, hname⟩ := List.mem_map.1 (hnames r.name (List.mem_map_of_mem hr))
  have hboth := (ruleNamed?_of_resolved hother).2 q hq
  rw [hname, (ruleNamed?_of_resolved h).2 r hr] at hboth
  exact Option.some.inj hboth ▸ hq

theorem perm_of_names
    (hnames : ∀ name, name ∈ sets.allRules.map (·.name) ↔ name ∈ others.allRules.map (·.name)) :
    sets.allRules.Perm others.allRules := by
  refine (List.perm_ext_iff_of_nodup (ruleNamed?_of_resolved h).1.of_map
    (ruleNamed?_of_resolved hother).1.of_map).2 fun r => ⟨fun hr => ?_, fun hr => ?_⟩
  · exact rules_subset_of_names h hother (fun name => (hnames name).1) hr
  · exact rules_subset_of_names hother h (fun name => (hnames name).2) hr

end Resolved

/-- Two lists of identifiers that resolve to rules of the same names, with the same properties and
least priority, report the same on the tree of any source, once the report is sorted. -/
theorem sorted_report_of_same_names (language : Language) (bytes : ByteArray) (path : String)
    (root : Concrete) (file : String) {b : Bundle} {list other : String} {sets others : RuleSets}
    (h : resolveRuleSets list b.factory = .ok sets)
    (hother : resolveRuleSets other b.factory = .ok others)
    (hnames : ∀ name, name ∈ sets.allRules.map (·.name) ↔ name ∈ others.allRules.map (·.name)) :
    (sets.reportOn (file, lower language bytes path root)).sort.violations =
      (others.reportOn (file, lower language bytes path root)).sort.violations := by
  refine mergeSort_eq_of_ties_eq Violation.compare fun v => ?_
  rw [violations_reportOn_lower, violations_reportOn_lower]
  exact ties_perm file _ v (perm_of_names h hother hnames) (ruleNamed?_of_resolved h).1

namespace Lowering

/-- Every operation and type with statements or branches is reported. -/
def lowMinimums : Std.TreeMap String RuleProperties :=
  let zero : RuleProperties :=
    (Std.TreeMap.empty.insert "minimum" (.number 0)).insert "class_minimum" (.number 0)
  (Std.TreeMap.empty.insert "CyclomaticComplexity" zero).insert "NcssCount" zero

theorem branching_class_reported_alike :
    let report (s : RuleSets) :=
      s.reportOn ("T.java", lower .java branchingSource "T.java" branchingTree)
    ∃ sets others : RuleSets,
      sets.allRules.map (·.name) = ["CyclomaticComplexity", "NcssCount"] ∧
      others.allRules.map (·.name) = ["NcssCount", "CyclomaticComplexity"] ∧
      resolveRuleSets "metrics" (Bundle.factory ⟨.low, lowMinimums⟩) = .ok sets ∧
      resolveRuleSets "metrics/NcssCount, metrics" (Bundle.factory ⟨.low, lowMinimums⟩) =
        .ok others ∧
      (report sets).sort.violations = (report others).sort.violations := by
  have hsets : (resolveRuleSets "metrics" (Bundle.factory ⟨.low, lowMinimums⟩)).map
      (·.allRules.map (·.name)) = .ok ["CyclomaticComplexity", "NcssCount"] := by
    rw [resolveRuleSets, identifiers_eq]
    decide
  have hothers : (resolveRuleSets "metrics/NcssCount, metrics"
      (Bundle.factory ⟨.low, lowMinimums⟩)).map (·.allRules.map (·.name)) =
        .ok ["NcssCount", "CyclomaticComplexity"] := by
    rw [resolveRuleSets, identifiers_eq]
    decide
  obtain ⟨sets, hsets, hnames⟩ := ok_of_map hsets
  obtain ⟨others, hothers, hothersNames⟩ := ok_of_map hothers
  refine ⟨sets, others, hnames, hothersNames, hsets, hothers,
    sorted_report_of_same_names .java branchingSource "T.java" branchingTree "T.java" hsets hothers
      fun name => ?_⟩
  rw [hnames, hothersNames]
  exact (List.Perm.swap "NcssCount" "CyclomaticComplexity" []).mem_iff

end Lowering

end CodeGauge

import CodeGauge.Report.Document
import CodeGauge.Report.Run
import CodeGauge.Proofs.ConfiguredRules
import CodeGauge.Proofs.ReportOrder

/-!
# Results and the rules they address

A SARIF log lists the rules of a run and, for each violation, a result with the place of its rule in
that list. The place is looked up by name and falls back to the first one, so it is right because of
what runs of rules keep: every violation of a report that they make has the name and the priority of
one of them (`ReportOf.ofRule`), and no two resolved rules have one name. The level of a result is
then the default level of the rule at its place (`results_address_rules`).

`Json.member?` reads a log back. What a result says is stated of what is read.
-/

namespace CodeGauge

/-! ## Reading documents -/

namespace Json

def member? (name : String) : Json → Option Json
  | object members => members.lookup name
  | _ => none

def items? : Json → Option (List Json)
  | array items => some items
  | _ => none

end Json

namespace Sarif

/-- The only run of a log. -/
def run? (log : Json) : Option Json := do
  match ← (← log.member? "runs").items? with
  | [run] => some run
  | _ => none

/-- The rules that the tool of a log lists. -/
def rules? (log : Json) : Option (List Json) := do
  let driver ← (← (← run? log).member? "tool").member? "driver"
  (← driver.member? "rules").items?

def results? (log : Json) : Option (List Json) := do
  (← (← run? log).member? "results").items?

/-- The level that a rule of a log gives to its results. -/
def defaultLevel? (rule : Json) : Option Json := do
  (← rule.member? "defaultConfiguration").member? "level"

/-- The place of a result: a file and the lines in it. -/
def location? (result : Json) : Option Json := do
  match ← (← result.member? "locations").items? with
  | [location] => location.member? "physicalLocation"
  | _ => none

/-- Whether a result is that of a violation, and addresses the one rule of its name, at whose level
it is. -/
structure Describes (rules : List Json) (v : Violation) (result : Json) : Prop where
  ruleId : result.member? "ruleId" = some (.string v.rule)
  message : (do (← result.member? "message").member? "text") = some (.string v.message)
  file : (do (← (← location? result).member? "artifactLocation").member? "uri") =
    some (.string (address v.file))
  lines : (do (← location? result).member? "region") =
    some (.object [("startLine", .integer v.firstLine), ("endLine", .integer v.lastLine)])
  rule : ∃ (index : Nat) (rule : Json) (level : String),
    result.member? "ruleIndex" = some (.integer index) ∧ rules[index]? = some rule ∧
      (∀ i : Nat, (rules[i]?.bind (·.member? "id")) = some (.string v.rule) ↔ i = index) ∧
        result.member? "level" = some (.string level) ∧ defaultLevel? rule = some (.string level)

end Sarif

/-! ## Reports of rules -/

/-- The reports that some rules make: those of single files, after any number of trees and with any
memos, merged and sorted. -/
inductive ReportOf (s : RuleSets) : Report → Prop
  | ofFile (file : String) : ReportOf s (.ofFile file)
  | apply {r : Report} (root : Node) (memo : ProjectMemo) (h : ReportOf s r) :
    ReportOf s (s.apply root r memo).1
  | merge {r other : Report} (h : ReportOf s r) (hother : ReportOf s other) :
    ReportOf s (r.merge other)
  | sort {r : Report} (h : ReportOf s r) : ReportOf s r.sort

theorem ofRule_applyAll {file : String} {root : Node} : ∀ {rules : List Rule} {memo : ProjectMemo},
    ∀ v ∈ (RuleSets.applyAll file root rules memo).1,
      ∃ rule ∈ rules, v.rule = rule.name ∧ v.priority = rule.priority
  | [], _, v, h => absurd h List.not_mem_nil
  | rule :: rules, _, v, h => by
    rcases List.mem_append.1 h with h | h
    · obtain ⟨f, -, rfl⟩ := List.mem_map.1 h
      exact ⟨rule, List.mem_cons_self, rfl, rfl⟩
    · obtain ⟨other, hother, hv⟩ := ofRule_applyAll v h
      exact ⟨other, List.mem_cons_of_mem _ hother, hv⟩

namespace ReportOf

variable {s : RuleSets}

/-- Every violation has the name and the priority of one of the rules. -/
theorem ofRule {r : Report} (h : ReportOf s r) :
    ∀ v ∈ r.violations, ∃ rule ∈ s.allRules, v.rule = rule.name ∧ v.priority = rule.priority := by
  induction h with
  | ofFile file => exact fun v hv => absurd hv List.not_mem_nil
  | apply root memo h ih =>
    intro v hv
    rcases List.mem_append.1 hv with hv | hv
    · exact ih v hv
    · exact ofRule_applyAll v hv
  | merge h hother ih ihother =>
    intro v hv
    exact (List.mem_append.1 hv).elim (ih v) (ihother v)
  | sort h ih => exact fun v hv => ih v (List.mem_mergeSort.1 hv)

theorem reportAll (files : List (String × Node)) : ReportOf s (s.reportAll files) := by
  refine .sort ?_
  have hmerged : ∀ (reports : List Report) (first : Report), (∀ r ∈ reports, ReportOf s r) →
      ReportOf s first → ReportOf s (reports.foldl Report.merge first) := by
    intro reports
    induction reports with
    | nil => exact fun first _ hfirst => hfirst
    | cons r reports ih =>
      intro first hreports hfirst
      exact ih _ (fun r' hr' => hreports r' (List.mem_cons_of_mem _ hr'))
        (.merge hfirst (hreports r List.mem_cons_self))
  refine hmerged _ _ (fun r hr => ?_) (.ofFile "")
  obtain ⟨file, -, rfl⟩ := List.mem_map.1 hr
  exact .apply file.2 ∅ (.ofFile file.1)

end ReportOf

/-! ## Results -/

namespace Sarif

section Address

variable {rules : List Rule} (hd : (rules.map (·.name)).Nodup) {rule : Rule} (h : rule ∈ rules)

include hd h

/-- Among rules of different names, the place of a rule's name is the place of the rule. -/
theorem getElem?_ruleIndex : rules[ruleIndex rules rule.name]? = some rule := by
  have hfound : (rules.findIdx? (·.name = rule.name)).isSome := by
    rw [List.findIdx?_isSome, List.any_eq_true]
    exact ⟨rule, h, decide_eq_true rfl⟩
  obtain ⟨i, hi⟩ := Option.isSome_iff_exists.1 hfound
  obtain ⟨hlt, hname, -⟩ := List.findIdx?_eq_some_iff_getElem.1 hi
  rw [ruleIndex, hi, Option.getD_some, List.getElem?_eq_getElem hlt]
  exact congrArg some
    (List.inj_on_of_nodup_map hd (List.getElem_mem hlt) h (of_decide_eq_true hname))

/-- No other place holds the name. -/
theorem getElem?_name_iff (i : Nat) :
    (rules.map (·.name))[i]? = some rule.name ↔ i = ruleIndex rules rule.name := by
  have hplace : (rules.map (·.name))[ruleIndex rules rule.name]? = some rule.name := by
    rw [List.getElem?_map, getElem?_ruleIndex hd h, Option.map_some]
  constructor
  · intro hi
    obtain ⟨hlt, -⟩ := List.getElem?_eq_some_iff.1 hi
    exact (List.getElem?_inj hlt hd).1 (hi.trans hplace.symm)
  · rintro rfl
    exact hplace

/-- The result of a violation with the name and the priority of one of the rules. -/
theorem describes_result {v : Violation} (hname : v.rule = rule.name)
    (hpriority : v.priority = rule.priority) :
    Describes (rules.map Sarif.rule) v (result rules v) where
  ruleId := rfl
  message := rfl
  file := rfl
  lines := rfl
  rule := by
    refine ⟨ruleIndex rules v.rule, Sarif.rule rule, level rule.priority, rfl, ?_, fun i => ?_, ?_,
      rfl⟩
    · rw [hname, List.getElem?_map, getElem?_ruleIndex hd h, Option.map_some]
    · have hid : ((rules.map Sarif.rule)[i]?.bind (·.member? "id")) =
          (rules.map (·.name))[i]?.map .string := by
        rw [List.getElem?_map, List.getElem?_map, Option.bind_map, Option.map_map]
        cases rules[i]? <;> rfl
      rw [hid, hname, ← getElem?_name_iff hd h i]
      cases (rules.map (·.name))[i]? with
      | none => exact iff_of_false nofun nofun
      | some name => simp only [Option.map_some, Option.some.injEq, Json.string.injEq]
    · rw [← hpriority]
      rfl

end Address

end Sarif

/-- In the log of a report that resolved rules made, there is one result for each violation, in the
order of the report. The index of a result is the place of the one rule in the list of rules that
has the result's rule name, and the level of the result is the default level of that rule. -/
theorem results_address_rules {list : String} {b : Bundle} {sets : RuleSets}
    (h : resolveRuleSets list b.factory = .ok sets) {report : Report} (hr : ReportOf sets report) :
    ∃ rules results, Sarif.rules? (Sarif.log report sets) = some rules ∧
      Sarif.results? (Sarif.log report sets) = some results ∧
        List.Forall₂ (Sarif.Describes rules) report.violations results := by
  refine ⟨_, _, rfl, rfl, List.forall₂_map_right_iff.2 (List.forall₂_same.2 fun v hv => ?_)⟩
  obtain ⟨rule, hrule, hname, hpriority⟩ := hr.ofRule v hv
  exact Sarif.describes_result (ruleNamed?_of_resolved h).1 hrule hname hpriority

/-- Long types are of the highest priority. -/
def urgentTypes : Std.TreeMap String RuleProperties :=
  Std.TreeMap.empty.insert "ExcessiveClassLength" (Std.TreeMap.empty.insert "priority" (.number 1))

/-- A file of one type of two thousand lines. -/
def longFile : Node :=
  .mk ⟨.compilationUnit, "program", ⟨1, 2000⟩, none, none⟩
    [.leaf ⟨.typeDeclaration, "class_declaration", ⟨1, 2000⟩, some "T", some "T"⟩]

theorem long_type_addresses_its_rule : ∃ sets,
    resolveRuleSets "metrics, all" (Bundle.factory ⟨.low, urgentTypes⟩) = .ok sets ∧
      (sets.reportAll [("T.java", longFile)]).violations.map
        (fun v => (v.rule, Sarif.ruleIndex sets.allRules v.rule, Sarif.level v.priority)) =
          [("ExcessiveClassLength", 3, "error")] ∧
      ∃ rules results,
        Sarif.rules? (Sarif.log (sets.reportAll [("T.java", longFile)]) sets) = some rules ∧
        Sarif.results? (Sarif.log (sets.reportAll [("T.java", longFile)]) sets) = some results ∧
        List.Forall₂ (Sarif.Describes rules) (sets.reportAll [("T.java", longFile)]).violations
          results := by
  have hfound : (resolveRuleSets "metrics, all" (Bundle.factory ⟨.low, urgentTypes⟩)).map
      (fun sets => (sets.reportAll [("T.java", longFile)]).violations.map
        fun v => (v.rule, Sarif.ruleIndex sets.allRules v.rule, Sarif.level v.priority)) =
          .ok [("ExcessiveClassLength", 3, "error")] := by
    rw [resolveRuleSets, identifiers_eq]
    decide +kernel
  obtain ⟨sets, hsets, hfound⟩ := ok_of_map hfound
  exact ⟨sets, hsets, hfound, results_address_rules hsets (.reportAll _)⟩

end CodeGauge

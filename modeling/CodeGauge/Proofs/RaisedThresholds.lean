import CodeGauge.Proofs.Inquiries
import CodeGauge.Proofs.RollupValue

/-!
# Higher thresholds

Raising the minimums of rules only takes violations away. Two configurations of the same rules make
the same inquiries of a tree, so they come to the same values, whether the names in the tree collide
or not; and a value above the higher minimum is above the lower one (`violations_of_raised`).
-/

namespace CodeGauge

namespace Rollup

/-- Whether two values are numbers and the second is no lower. -/
def NotLowered (a b : Float) : Prop := ¬a.isNaN ∧ ¬b.isNaN ∧ ¬b < a

theorem isNumber_of_lt {x y : Float} (h : x < y) : IsNumber y := by
  intro hy
  rw [lt_iff_unpack_lt, hy] at h
  cases hx : x.toModel.unpack <;> rw [hx] at h <;> cases h

theorem NotLowered.lt {a b x : Float} (h : NotLowered a b) (hx : b < x) : a < x := by
  obtain ⟨ha, hb, hba⟩ := h
  have hnumber := isNumber_of_lt hx
  have ha := isNumber_of_not_isNaN ha
  have hb := isNumber_of_not_isNaN hb
  rw [lt_iff_rank_lt hb hnumber] at hx
  rw [lt_iff_rank_lt hb ha, not_lt] at hba
  exact (lt_iff_rank_lt ha hnumber).2 (hba.trans_lt hx)

end Rollup

open Rollup (NotLowered)

/-- Whether a rule is another one with minimums that are no lower. -/
inductive Rule.Raised : Rule → Rule → Prop
  | count (r : NodeCountRule) {minimum : Float} (h : NotLowered r.minimum minimum) :
    Raised (.count r) (.count { r with minimum })
  | threshold (r : ThresholdRule) {minimum typeMinimum : Float} (h : NotLowered r.minimum minimum)
      (ht : NotLowered r.typeMinimum typeMinimum) :
    Raised (.threshold r) (.threshold { r with minimum, typeMinimum })

/-- A value of a run of rules, the minimums that two configurations compare it with, and the
violation that it is if they are lower. -/
structure Comparison where
  value : Float
  minimum : Float
  raisedMinimum : Float
  violation : Violation

/-- The comparisons of the inquiries of a rule that came to some values. -/
def Rule.comparisons (file : String) (rule raised : Rule) (inquiries : List Inquiry)
    (values : List Float) : List Comparison :=
  (inquiries.zip values).map fun x =>
    let f := x.1.finding x.2
    ⟨x.2, rule.bar x.1.bar, raised.bar x.1.bar, .on file rule f.node f.score f.message⟩

/-- The comparisons of a run of rules on a tree, each rule with another configuration of it. -/
def comparisons (file : String) (root : Node) : List (Rule × Rule) → ProjectMemo → List Comparison
  | [], _ => []
  | (rule, raised) :: rules, memo =>
    let asked := inTurn (m := Id) (Inquiry.run Query.answer) (rule.inquiries root) memo
    rule.comparisons file raised (rule.inquiries root) asked.1 ++
      comparisons file root rules asked.2

namespace NodeCountRule

variable (r : NodeCountRule) (minimum : Float)

theorem total_raised (n : Node) : { r with minimum }.total n = r.total n := by
  induction n using Node.children_induction with
  | mk head children ih =>
    have hchildren : { r with minimum }.totals children = r.totals children := by
      rw [totals_eq_sum, totals_eq_sum, List.map_congr_left fun c hc => by rw [ih c hc]]
      rfl
    rw [total_eq, total_eq, Node.children, hchildren]
    rfl

theorem entered_raised (n : Node) : { r with minimum }.entered n = r.entered n := by
  induction n using Node.children_induction with
  | mk head children ih =>
    rw [entered, entered, reached_eq, reached_eq, Node.children, Node.gather_congr ih]
    rfl

theorem inquiries_raised (root : Node) : { r with minimum }.inquiries root = r.inquiries root := by
  unfold inquiries
  simp only [entered_raised, total_raised]
  rfl

end NodeCountRule

namespace Rule.Raised

variable {r r' : Rule}

theorem inquiries_eq (h : r.Raised r') (root : Node) : r'.inquiries root = r.inquiries root := by
  cases h with
  | count r h => exact r.inquiries_raised _ root
  | threshold r h ht => rfl

theorem notLowered_bar (h : r.Raised r') (bar : Bar) : NotLowered (r.bar bar) (r'.bar bar) := by
  cases h with
  | count r h => exact h
  | threshold r h ht =>
    cases bar with
    | minimum => exact h
    | typeMinimum => exact ht

theorem violation_eq (h : r.Raised r') (file : String) (n : Node) (score message : String) :
    Violation.on file r' n score message = .on file r n score message := by
  cases h <;> rfl

end Rule.Raised

/-! ## Two runs -/

section Run

variable (file : String) (root : Node)

theorem violations_of_comparisons (rule raised : Rule) (is : List Inquiry) (vs : List Float) :
    (rule.findings is vs).map (fun f => Violation.on file rule f.node f.score f.message) =
      ((rule.comparisons file raised is vs).filter fun c => c.minimum < c.value).map
        (·.violation) := by
  rw [Rule.findings, Rule.comparisons, List.filter_map, List.map_map, List.map_map]
  rfl

theorem violations_of_raisedRule {rule raised : Rule} (h : rule.Raised raised) (is : List Inquiry)
    (vs : List Float) :
    (raised.findings is vs).map (fun f => Violation.on file raised f.node f.score f.message) =
      ((rule.comparisons file raised is vs).filter fun c => c.raisedMinimum < c.value).map
        (·.violation) := by
  rw [Rule.findings, Rule.comparisons, List.filter_map, List.map_map, List.map_map]
  simp only [h.violation_eq]
  rfl

theorem notLowered_of_mem_comparisons {rules raised : List Rule}
    (h : List.Forall₂ Rule.Raised rules raised) (memo : ProjectMemo) :
    ∀ c ∈ comparisons file root (rules.zip raised) memo, NotLowered c.minimum c.raisedMinimum := by
  induction h generalizing memo with
  | nil => exact fun c hc => absurd hc List.not_mem_nil
  | cons h _ ih =>
    intro c hc
    rcases List.mem_append.1 hc with hc | hc
    · obtain ⟨x, -, rfl⟩ := List.mem_map.1 hc
      exact h.notLowered_bar x.1.bar
    · exact ih _ c hc

/-- Both configurations make the same inquiries, and each leaves the memo as the other does. -/
theorem violationsIn_eq_comparisons {rules raised : List Rule}
    (h : List.Forall₂ Rule.Raised rules raised) (memo : ProjectMemo) :
    let compared := comparisons file root (rules.zip raised) memo
    (violationsIn Query.answer file root rules memo).1 =
        (compared.filter fun c => c.minimum < c.value).map (·.violation) ∧
      (violationsIn Query.answer file root raised memo).1 =
        (compared.filter fun c => c.raisedMinimum < c.value).map (·.violation) := by
  induction h generalizing memo with
  | nil => exact ⟨rfl, rfl⟩
  | cons h _ ih =>
    simp only [violationsIn, List.zip_cons_cons, comparisons, List.filter_append, List.map_append,
      h.inquiries_eq]
    obtain ⟨hrest, hraised⟩ := ih _
    exact ⟨congrArg₂ _ (violations_of_comparisons _ _ _ _ _) hrest,
      congrArg₂ _ (violations_of_raisedRule _ h _ _) hraised⟩

end Run

/-- If the minimums of rules are raised, a run on any tree reports those of its violations whose
value is above the raised minimum, in the same order and with the same scores and messages. -/
theorem violations_of_raised {sets raised : RuleSets}
    (h : List.Forall₂ Rule.Raised sets.allRules raised.allRules) (file : String) (root : Node) :
    let compared := comparisons file root (sets.allRules.zip raised.allRules) ∅
    let reported := compared.filter fun c => c.minimum < c.value
    (sets.reportOn (file, root)).violations = reported.map (·.violation) ∧
      (raised.reportOn (file, root)).violations =
        (reported.filter fun c => c.raisedMinimum < c.value).map (·.violation) := by
  intro compared reported
  obtain ⟨hfirst, hsecond⟩ := violationsIn_eq_comparisons file root h ∅
  have hboth : reported.filter (fun c => c.raisedMinimum < c.value) =
      compared.filter fun c => c.raisedMinimum < c.value := by
    rw [List.filter_filter]
    refine List.filter_congr fun c hc => ?_
    have hlt := (notLowered_of_mem_comparisons file root h ∅ c hc).lt (x := c.value)
    by_cases hraised : c.raisedMinimum < c.value
    · simp [hraised, hlt hraised]
    · simp [hraised]
  rw [violations_reportOn, violations_reportOn, hboth]
  exact ⟨hfirst, hsecond⟩

namespace ThresholdRule

/-- A type of two operations of one name, the first of which branches twice. -/
def overloadingFile : Node :=
  let op (below : List Node) : Node :=
    .mk ⟨.operationDeclaration, "method_declaration", ⟨2, 5⟩, some "f", some "T#f()"⟩ below
  let branch : Node := .leaf ⟨.branch, "if_statement", ⟨3, 4⟩, none, none⟩
  .mk ⟨.compilationUnit, "program", ⟨1, 9⟩, none, none⟩
    [.mk ⟨.typeDeclaration, "class_declaration", ⟨1, 9⟩, some "T", some "T"⟩
      [op [branch, branch], op []]]

def withMinimums (minimum typeMinimum : Float) : RuleSets :=
  ⟨[⟨"small", [.threshold { cyclomaticComplexity with minimum, typeMinimum },
    .count { Design.excessiveMethodCount with minimum }]⟩]⟩

/-- The second operation has the value that is remembered under the name of the first. -/
theorem overloadingFile_raised :
    let scores (s : RuleSets) :=
      (s.reportOn ("T.java", overloadingFile)).violations.map fun v => (v.rule, v.score)
    List.Forall₂ Rule.Raised (withMinimums 0 0).allRules (withMinimums 2 6).allRules ∧
      scores (withMinimums 0 0) = [("CyclomaticComplexity", "3"), ("CyclomaticComplexity", "3"),
        ("CyclomaticComplexity", "6"), ("ExcessiveMethodCount", "2")] ∧
      scores (withMinimums 2 6) =
        [("CyclomaticComplexity", "3"), ("CyclomaticComplexity", "3")] := by
  intro scores
  have hminimum : NotLowered 0 2 := by
    unfold NotLowered
    decide
  have htypeMinimum : NotLowered 0 6 := by
    unfold NotLowered
    decide
  have hraised : List.Forall₂ Rule.Raised (withMinimums 0 0).allRules
      (withMinimums 2 6).allRules :=
    .cons (.threshold _ hminimum htypeMinimum) (.cons (.count _ hminimum) .nil)
  obtain ⟨hlow, hhigh⟩ := violations_of_raised hraised "T.java" overloadingFile
  unfold scores
  rw [hlow, hhigh]
  exact ⟨hraised, by decide +kernel, by decide +kernel⟩

end ThresholdRule

end CodeGauge

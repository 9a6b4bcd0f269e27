import CodeGauge.Report.Run
import CodeGauge.Proofs.History
import CodeGauge.Proofs.TargetScores

/-!
# What rules ask for

What a rule asks a memo for does not depend on the answers, nor on the minimums of the rule: a tree
gives it a list of inquiries, each a list of queries with what the rule makes of the answers. A rule
runs its inquiries in turn and reports those whose value is above its minimum (`apply_eq`), and so
does a run of rules (`applyAll_eq`).

Inquiries can be run on any state that answers queries. A project memo is one.
-/

namespace CodeGauge

/-- A minimum of a rule. -/
inductive Bar where
  | minimum
  | typeMinimum

/-- A metric asked for on a declaration of its target. -/
structure Query where
  metric : Metric Id
  node : Node
  options : MetricOptions

/-- The answer of a project memo, and the memo after it. -/
def Query.answer (q : Query) (memo : ProjectMemo) : Float × ProjectMemo :=
  (q.metric.requestIn q.metric.target q.node false q.options memo).run

/-- A value that a rule compares with one of its minimums. -/
structure Inquiry where
  bar : Bar
  queries : List Query
  /-- The value that the answers make. -/
  value : List Float → Float
  /-- What the rule reports if its minimum is below the value. -/
  finding : Float → Finding

/-- The value of an inquiry in a state that answers queries, and the state after it. -/
def Inquiry.run {σ : Type} (ask : Query → σ → Float × σ) (i : Inquiry) (s : σ) : Float × σ :=
  let asked := inTurn (m := Id) ask i.queries s
  (i.value asked.1, asked.2)

/-! ## Inquiries of rules -/

/-- A counting rule has the values of its targets without asking. -/
def NodeCountRule.inquiries (r : NodeCountRule) (root : Node) : List Inquiry :=
  ((r.entered root).filter fun x => x.2.kind = r.target).map fun x =>
    let p := r.pointWith x.2 (r.total x.2)
    ⟨.minimum, [], fun _ => Float.ofNat p.score, fun _ => ⟨p.node, p.label, p.message⟩⟩

namespace ThresholdRule

def operationInquiry (r : ThresholdRule) (op : Node) : Inquiry :=
  let metric : Metric Id := match r.measured with
    | .complexity _ => .operationComplexity
    | .statements => .operationStatements
  ⟨.minimum, [⟨metric, op, r.options⟩], (·.headD Rollup.notANumber), r.finding .operation op⟩

def typeInquiry (r : ThresholdRule) (type : Node) : Inquiry :=
  match r.measured with
  | .complexity mode =>
    let metric : Metric Id := .operationComplexity
    ⟨.typeMinimum, (type.declaredOperations.filter metric.supports).map (⟨metric, ·, r.options⟩),
      fun answers => mode.reduce (answers.filter (!·.isNaN)), r.finding .type type⟩
  | .statements =>
    ⟨.typeMinimum, [⟨.typeStatements, type, r.options⟩], (·.headD Rollup.notANumber),
      r.finding .type type⟩

def inquiries (r : ThresholdRule) (root : Node) : List Inquiry :=
  ((root.descendantsOfKind .operationDeclaration).filter (!r.skips ·)).map r.operationInquiry ++
    ((root.descendantsOfKind .typeDeclaration).filter (!r.skips ·)).map r.typeInquiry

end ThresholdRule

namespace Rule

def inquiries (root : Node) : Rule → List Inquiry
  | count r => r.inquiries root
  | threshold r => r.inquiries root

def bar : Rule → Bar → Float
  | count r, _ => r.minimum
  | threshold r, .minimum => r.minimum
  | threshold r, .typeMinimum => r.typeMinimum

/-- The findings of a rule on inquiries that came to some values. -/
def findings (r : Rule) (inquiries : List Inquiry) (values : List Float) : List Finding :=
  ((inquiries.zip values).filter fun x => r.bar x.1.bar < x.2).map fun x => x.1.finding x.2

end Rule

/-- The violations of rules on a tree, with the values of their inquiries in some state. -/
def violationsIn {σ : Type} (ask : Query → σ → Float × σ) (file : String) (root : Node) :
    List Rule → σ → List Violation × σ
  | [], s => ([], s)
  | rule :: rules, s =>
    let asked := inTurn (m := Id) (Inquiry.run ask) (rule.inquiries root) s
    let rest := violationsIn ask file root rules asked.2
    ((rule.findings (rule.inquiries root) asked.1).map
      (fun f => .on file rule f.node f.score f.message) ++ rest.1, rest.2)

/-! ## Runs of inquiries -/

section InTurn

variable {σ ρ : Type}

theorem inTurn_cons (ask : ρ → σ → Id (Float × σ)) (r : ρ) (rs : List ρ) (s : σ) :
    inTurn ask (r :: rs) s =
      ((ask r s).1 :: (inTurn ask rs (ask r s).2).1, (inTurn ask rs (ask r s).2).2) := rfl

theorem inTurn_append (ask : ρ → σ → Id (Float × σ)) (rs rs' : List ρ) (s : σ) :
    inTurn ask (rs ++ rs') s =
      ((inTurn ask rs s).1 ++ (inTurn ask rs' (inTurn ask rs s).2).1,
        (inTurn ask rs' (inTurn ask rs s).2).2) := by
  induction rs generalizing s with
  | nil => rfl
  | cons r rs ih =>
    rw [List.cons_append, inTurn_cons, ih, inTurn_cons]
    rfl

theorem length_inTurn (ask : ρ → σ → Id (Float × σ)) (rs : List ρ) (s : σ) :
    (inTurn ask rs s).1.length = rs.length := by
  induction rs generalizing s with
  | nil => rfl
  | cons r rs ih => rw [inTurn_cons, List.length_cons, List.length_cons, ih]

/-- Inquiries without queries leave the state alone. -/
theorem inTurn_run_of_noQueries (ask : Query → σ → Float × σ) {is : List Inquiry}
    (h : ∀ i ∈ is, i.queries = []) (s : σ) :
    inTurn (m := Id) (Inquiry.run ask) is s = (is.map (·.value []), s) := by
  induction is generalizing s with
  | nil => rfl
  | cons i is ih =>
    have hi : i.run ask s = (i.value [], s) := by
      rw [Inquiry.run, h i List.mem_cons_self]
      rfl
    rw [inTurn_cons, hi, ih fun i hi => h i (List.mem_cons_of_mem _ hi), List.map_cons]

end InTurn

namespace Rule

theorem findings_cons (r : Rule) (i : Inquiry) (is : List Inquiry) (v : Float) (vs : List Float) :
    r.findings (i :: is) (v :: vs) =
      if r.bar i.bar < v then i.finding v :: r.findings is vs else r.findings is vs := by
  unfold findings
  rw [List.zip_cons_cons, List.filter_cons]
  by_cases h : r.bar i.bar < v <;> simp [h]

theorem findings_map (r : Rule) (is : List Inquiry) (value : Inquiry → Float) :
    r.findings is (is.map value) =
      (is.filter fun i => r.bar i.bar < value i).map fun i => i.finding (value i) := by
  induction is with
  | nil => rfl
  | cons i is ih =>
    rw [List.map_cons, findings_cons, List.filter_cons, ih]
    by_cases h : r.bar i.bar < value i <;> simp [h]

theorem findings_append (r : Rule) {is : List Inquiry} {vs : List Float}
    (h : is.length = vs.length) (is' : List Inquiry) (vs' : List Float) :
    r.findings (is ++ is') (vs ++ vs') = r.findings is vs ++ r.findings is' vs' := by
  unfold findings
  rw [List.zip_append h, List.filter_append, List.map_append]

end Rule

/-! ## Two states that answer alike -/

/-- Whether related states give the same answers and stay related. -/
def Simulates {ρ σ τ : Type} (R : σ → τ → Prop) (ask : ρ → σ → Float × σ)
    (tell : ρ → τ → Float × τ) : Prop :=
  ∀ r s t, R s t → (ask r s).1 = (tell r t).1 ∧ R (ask r s).2 (tell r t).2

namespace Simulates

variable {σ τ : Type} {R : σ → τ → Prop} {s : σ} {t : τ}

theorem inTurn {ρ : Type} {ask : ρ → σ → Float × σ} {tell : ρ → τ → Float × τ}
    (h : Simulates R ask tell) (rs : List ρ) (hR : R s t) :
    let asked := CodeGauge.inTurn (m := Id) ask rs s
    let told := CodeGauge.inTurn (m := Id) tell rs t
    asked.1 = told.1 ∧ R asked.2 told.2 := by
  induction rs generalizing s t with
  | nil => exact ⟨rfl, hR⟩
  | cons r rs ih =>
    obtain ⟨hfirst, hR⟩ := h r s t hR
    obtain ⟨hrest, hR⟩ := ih hR
    exact ⟨congrArg₂ List.cons hfirst hrest, hR⟩

variable {ask : Query → σ → Float × σ} {tell : Query → τ → Float × τ} (h : Simulates R ask tell)

include h

theorem inquiry : Simulates R (Inquiry.run ask) (Inquiry.run tell) := by
  intro i s t hR
  obtain ⟨hanswers, hR⟩ := h.inTurn i.queries hR
  exact ⟨congrArg i.value hanswers, hR⟩

/-- Rules find the same with either. -/
theorem violationsIn (file : String) (root : Node) (rules : List Rule) (hR : R s t) :
    (CodeGauge.violationsIn ask file root rules s).1 =
      (CodeGauge.violationsIn tell file root rules t).1 := by
  induction rules generalizing s t with
  | nil => rfl
  | cons r rules ih =>
    obtain ⟨hvalues, hR⟩ := h.inquiry.inTurn (r.inquiries root) hR
    simp only [CodeGauge.violationsIn]
    rw [hvalues, ih hR]

end Simulates

/-! ## The run of a rule -/

theorem NodeCountRule.findings_inquiries (r : NodeCountRule) (root : Node) :
    (Rule.count r).findings (r.inquiries root) ((r.inquiries root).map (·.value [])) =
      (r.dataPoints root).map fun p => ⟨p.node, p.label, p.message⟩ := by
  rw [Rule.findings_map, dataPoints_eq, pointsOf_eq, inquiries, List.filter_map, List.map_map,
    List.map_map]
  rfl

namespace ThresholdRule

variable (r : ThresholdRule)

theorem run_operationInquiry (op : Node) (memo : ProjectMemo) :
    (r.operationInquiry op).run Query.answer memo = r.operationValue op memo := by
  unfold operationInquiry operationValue
  cases r.measured <;> rfl

theorem run_typeInquiry (type : Node) (memo : ProjectMemo) :
    (r.typeInquiry type).run Query.answer memo = r.typeValue type memo := by
  unfold typeInquiry typeValue
  cases r.measured with
  | complexity mode =>
    simp only [Metric.rollUp, requestAll_eq_inTurn, Inquiry.run, inTurn_map]
    rfl
  | statements => rfl

/-- Going through declarations comes to the inquiries on those that are not skipped. -/
theorem above_eq (target : MetricTarget) (bar : Bar) {inquiry : Node → Inquiry}
    {value : Node → ProjectMemo → Float × ProjectMemo} (hbar : ∀ n, (inquiry n).bar = bar)
    (hfinding : ∀ n, (inquiry n).finding = r.finding target n)
    (hrun : ∀ n memo, (inquiry n).run Query.answer memo = value n memo) (ns : List Node)
    (memo : ProjectMemo) :
    let inquiries := (ns.filter (!r.skips ·)).map inquiry
    let asked := inTurn (m := Id) (Inquiry.run Query.answer) inquiries memo
    r.above target ((Rule.threshold r).bar bar) value ns memo =
      ((Rule.threshold r).findings inquiries asked.1, asked.2) := by
  induction ns generalizing memo with
  | nil => rfl
  | cons n ns ih =>
    rw [above, List.filter_cons]
    by_cases h : r.skips n
    · simpa [h] using ih memo
    · simp only [h, Bool.not_false, if_true, List.map_cons, inTurn_cons, Rule.findings_cons, hbar,
        hfinding, hrun, ih]
      rfl

end ThresholdRule

/-- A rule reports the inquiries that come to a value above its minimum. -/
theorem Rule.apply_eq (r : Rule) (root : Node) (memo : ProjectMemo) :
    let asked := inTurn (m := Id) (Inquiry.run Query.answer) (r.inquiries root) memo
    r.apply root memo = (r.findings (r.inquiries root) asked.1, asked.2) := by
  cases r with
  | count r =>
    have hnone : ∀ i ∈ r.inquiries root, i.queries = [] := by
      intro i hi
      obtain ⟨x, -, rfl⟩ := List.mem_map.1 hi
      rfl
    simp only [Rule.inquiries, inTurn_run_of_noQueries _ hnone, r.findings_inquiries]
    rfl
  | threshold r =>
    have hbar : ∀ n, (r.typeInquiry n).bar = .typeMinimum := by
      intro n
      unfold ThresholdRule.typeInquiry
      split <;> rfl
    have hfinding : ∀ n, (r.typeInquiry n).finding = r.finding .type n := by
      intro n
      unfold ThresholdRule.typeInquiry
      split <;> rfl
    have hops := r.above_eq .operation .minimum (fun _ => rfl) (fun _ => rfl)
      r.run_operationInquiry
    have htypes := r.above_eq .type .typeMinimum hbar hfinding r.run_typeInquiry
    simp only [Rule.inquiries, ThresholdRule.inquiries, inTurn_append]
    rw [Rule.findings_append _ (length_inTurn _ _ _).symm]
    simp only [Rule.bar] at hops htypes
    simp only [Rule.apply, ThresholdRule.apply, hops, htypes]

/-- A run of rules is the run of their inquiries. -/
theorem applyAll_eq (file : String) (root : Node) (rules : List Rule) (memo : ProjectMemo) :
    RuleSets.applyAll file root rules memo = violationsIn Query.answer file root rules memo := by
  induction rules generalizing memo with
  | nil => rfl
  | cons r rules ih => simp only [RuleSets.applyAll, violationsIn, r.apply_eq, ih]

theorem violations_reportOn (s : RuleSets) (file : String) (root : Node) :
    (s.reportOn (file, root)).violations =
      (violationsIn Query.answer file root s.allRules ∅).1 := by
  rw [← applyAll_eq]
  rfl

/-- The violations of a run on a file are of that file. -/
theorem file_of_mem_violationsIn {σ : Type} {ask : Query → σ → Float × σ} {file : String}
    {root : Node} {v : Violation} {rules : List Rule} {s : σ}
    (h : v ∈ (violationsIn ask file root rules s).1) : v.file = file := by
  induction rules generalizing s with
  | nil => exact absurd h List.not_mem_nil
  | cons r rules ih =>
    rcases List.mem_append.1 h with h | h
    · obtain ⟨f, -, rfl⟩ := List.mem_map.1 h
      rfl
    · exact ih h

end CodeGauge

import CodeGauge.Report.Run
import CodeGauge.Proofs.TrueMemo

/-!
# Rules without a memo

`directViolations` is a run of rules in which every value is computed on its node when it is needed
and none is remembered. A run on a lowered tree with a memo finds the same (`reportOn_lower`).

Values are remembered under qualified names, so this rests on names belonging to one node each. Then
a memo that holds only values that the built-in metrics do have on the nodes of the tree
(`ProjectMemo.Sound`) stays one whatever is requested, and each request gives the value that
computing would. `Yields` says both of any computation that goes through the memo, and each function
from a single request to the run of all rules has one lemma in these terms.
-/

namespace CodeGauge

/-! ## A run without a memo -/

namespace ThresholdRule

/-- The value of an operation, computed. -/
def directOperationValue (r : ThresholdRule) (op : Node) : Float :=
  let metric : Metric Id := match r.measured with
    | .complexity _ => .operationComplexity
    | .statements => .operationStatements
  (metric.compute op r.options).run

/-- The value of a type, computed on the type or on its operations. -/
def directTypeValue (r : ThresholdRule) (type : Node) : Float :=
  match r.measured with
  | .complexity mode =>
    let metric : Metric Id := .operationComplexity
    let values := (type.declaredOperations.filter metric.supports).map fun op =>
      (metric.compute op r.options).run
    mode.reduce (values.filter (!·.isNaN))
  | .statements =>
    let metric : Metric Id := .typeStatements
    (metric.compute type r.options).run

/-- The findings on the declarations whose value is above a minimum. -/
def directlyAbove (r : ThresholdRule) (target : MetricTarget) (minimum : Float)
    (value : Node → Float) (ns : List Node) : List Finding :=
  (ns.filter fun n => !r.skips n && decide (minimum < value n)).map fun n =>
    r.finding target n (value n)

def directFindings (r : ThresholdRule) (root : Node) : List Finding :=
  r.directlyAbove .operation r.minimum r.directOperationValue
      (root.descendantsOfKind .operationDeclaration) ++
    r.directlyAbove .type r.typeMinimum r.directTypeValue (root.descendantsOfKind .typeDeclaration)

end ThresholdRule

/-- The findings of a rule on a tree, every value computed on its node. -/
def Rule.directFindings (r : Rule) (root : Node) : List Finding :=
  match r with
  | count r => (r.dataPoints root).map fun p => ⟨p.node, p.label, p.message⟩
  | threshold r => r.directFindings root

/-- The violations of the rules on a tree, every value computed on its node. -/
def RuleSets.directViolations (s : RuleSets) (file : String) (root : Node) : List Violation :=
  s.allRules.flatMap fun rule =>
    (rule.directFindings root).map fun f => .on file rule f.node f.score f.message

/-! ## Memos that hold true values -/

/-- The metrics that come with the library. -/
def Metric.builtIn : List (Metric Id) := ofTypes ++ ofOperations

/-- No two built-in metrics of one target have one name. -/
theorem eq_of_builtIn {k k' : Metric Id} (h : k ∈ Metric.builtIn) (h' : k' ∈ Metric.builtIn)
    (hid : k.toMetricId = k'.toMetricId) : k = k' := by
  have hdistinct : (Metric.builtIn.map (·.toMetricId)).Nodup := by decide
  exact List.inj_on_of_nodup_map hdistinct h h' hid

/-- Whether all that a memo holds for the nodes of a tree is what computing would give. -/
def ProjectMemo.Sound (p : ProjectMemo) (nodes : List Node) : Prop :=
  ∀ k ∈ Metric.builtIn, ∀ n ∈ nodes, ∀ name, n.qualifiedName? = some name →
    ∀ options value, p.contents ⟨k.target, name, k.slot options⟩ = some value →
      value = (k.compute n options).run

namespace ProjectMemo.Sound

variable {nodes : List Node} {p : ProjectMemo}

theorem empty : (∅ : ProjectMemo).Sound nodes := fun _ _ => TrueOf.empty

/-- What a request writes is true of the one built-in metric that it can be read as. -/
theorem requestIn (hd : (nodes.filterMap (·.qualifiedName?)).Nodup) (h : p.Sound nodes)
    {k : Metric Id} (hk : k ∈ Metric.builtIn) {side : MetricTarget} (ht : k.target = side)
    {n : Node} (hn : n ∈ nodes) (options : MetricOptions) :
    (k.requestIn side n false options p).run.2.Sound nodes := by
  intro other hother
  by_cases hid : other.toMetricId = k.toMetricId
  · obtain rfl := eq_of_builtIn hother hk hid
    exact TrueOf.requestIn hd (h other hother) ht hn false options
  · exact TrueOf.requestIn_of_ne (h other hother) hid ht n false options

end ProjectMemo.Sound

/-- Whether a computation gives a value from any memo that is sound for some nodes, and leaves one
that is. -/
def Yields {α : Type} (nodes : List Node) (x : ProjectMemo → α × ProjectMemo) (a : α) : Prop :=
  ∀ p, p.Sound nodes → (x p).1 = a ∧ (x p).2.Sound nodes

section Requests

variable {nodes : List Node} (hd : (nodes.filterMap (·.qualifiedName?)).Nodup) {k : Metric Id}
  (hk : k ∈ Metric.builtIn) (options : MetricOptions)

include hd hk

theorem yields_requestIn {side : MetricTarget} (ht : k.target = side) {n : Node}
    (hn : n ∈ nodes) :
    Yields nodes (fun p => (k.requestIn side n false options p).run)
      (k.compute n options).run := by
  intro p hp
  rw [(k.requestIn_spec n false options p ht).1]
  exact ⟨ProjectMemo.TrueOf.answer_eq (hp k hk) hn false options, hp.requestIn hd hk ht hn options⟩

theorem yields_requestAll (ht : k.target = .operation) (ops : List Node)
    (hops : ∀ op ∈ ops, op ∈ nodes) :
    Yields nodes (fun p => (k.requestAll false options ops p).run)
      ((ops.map fun op => (k.compute op options).run).filter (!·.isNaN)) :=
  keeps_requestAll ops fun op h => yields_requestIn hd hk options ht (hops op h)

end Requests

section Rules

variable {nodes : List Node} (r : ThresholdRule)

theorem directlyAbove_cons (target : MetricTarget) (minimum : Float) (value : Node → Float)
    (n : Node) (ns : List Node) :
    r.directlyAbove target minimum value (n :: ns) =
      let rest := r.directlyAbove target minimum value ns
      if r.skips n then rest
      else if minimum < value n then r.finding target n (value n) :: rest else rest := by
  unfold ThresholdRule.directlyAbove
  rw [List.filter_cons]
  cases r.skips n with
  | true => rfl
  | false =>
    by_cases h : minimum < value n
    · simp [h]
    · simp [h]

theorem yields_above (target : MetricTarget) (minimum : Float)
    {value : Node → ProjectMemo → Float × ProjectMemo} {direct : Node → Float} :
    ∀ ns : List Node, (∀ n ∈ ns, Yields nodes (value n) (direct n)) →
      Yields nodes (r.above target minimum value ns) (r.directlyAbove target minimum direct ns)
  | [], _ => fun _ hp => ⟨rfl, hp⟩
  | n :: ns, hns => by
    have hrest := yields_above target minimum ns fun m h => hns m (List.mem_cons_of_mem _ h)
    intro p hp
    rw [ThresholdRule.above, directlyAbove_cons]
    split
    · exact hrest p hp
    · obtain ⟨hvalue, hp⟩ := hns n List.mem_cons_self p hp
      obtain ⟨hfindings, hp⟩ := hrest _ hp
      refine ⟨?_, hp⟩
      simp only [hvalue, hfindings]

variable (hd : (nodes.filterMap (·.qualifiedName?)).Nodup)

include hd

theorem yields_operationValue {op : Node} (h : op ∈ nodes) :
    Yields nodes (r.operationValue op) (r.directOperationValue op) := by
  unfold ThresholdRule.operationValue ThresholdRule.directOperationValue
  cases r.measured with
  | complexity => exact yields_requestIn hd (by simp [Metric.builtIn, Metric.ofOperations]) _ rfl h
  | statements => exact yields_requestIn hd (by simp [Metric.builtIn, Metric.ofOperations]) _ rfl h

theorem yields_typeValue {type : Node} (h : type ∈ nodes)
    (hops : ∀ op ∈ type.declaredOperations, op ∈ nodes) :
    Yields nodes (r.typeValue type) (r.directTypeValue type) := by
  unfold ThresholdRule.typeValue ThresholdRule.directTypeValue
  cases r.measured with
  | complexity mode =>
    intro p hp
    have hall := yields_requestAll hd (k := .operationComplexity)
      (by simp [Metric.builtIn, Metric.ofOperations]) r.options rfl
      (type.declaredOperations.filter (Metric.operationComplexity (m := Id)).supports)
      (fun op h => hops op (List.mem_filter.1 h).1) p hp
    exact ⟨congrArg mode.reduce hall.1, hall.2⟩
  | statements => exact yields_requestIn hd (by simp [Metric.builtIn, Metric.ofTypes]) _ rfl h

end Rules

section Run

variable {root : Node} (hd : (root.nodes.filterMap (·.qualifiedName?)).Nodup)

include hd

theorem yields_threshold (r : ThresholdRule) :
    Yields root.nodes (r.apply root) (r.directFindings root) := by
  have hoperations := yields_above r .operation r.minimum
    (root.descendantsOfKind .operationDeclaration) fun op h =>
      yields_operationValue r hd (Node.mem_nodes_of_mem_descendantsOfKind h)
  have htypes := yields_above r .type r.typeMinimum (root.descendantsOfKind .typeDeclaration)
    fun type h => yields_typeValue r hd (Node.mem_nodes_of_mem_descendantsOfKind h) fun op hop =>
      Node.mem_nodes_of_mem_declaredOperations (Node.mem_nodes_of_mem_descendantsOfKind h) hop
  intro p hp
  obtain ⟨hfirst, hp⟩ := hoperations p hp
  obtain ⟨hsecond, hp⟩ := htypes _ hp
  refine ⟨?_, hp⟩
  rw [ThresholdRule.directFindings, ← hfirst, ← hsecond]
  rfl

theorem yields_apply (r : Rule) : Yields root.nodes (r.apply root) (r.directFindings root) := by
  cases r with
  | count r => exact fun p hp => ⟨rfl, hp⟩
  | threshold r => exact yields_threshold hd r

theorem yields_applyAll (file : String) : ∀ rules : List Rule,
    Yields root.nodes (RuleSets.applyAll file root rules)
      (rules.flatMap fun rule =>
        (rule.directFindings root).map fun f => .on file rule f.node f.score f.message)
  | [] => fun _ hp => ⟨rfl, hp⟩
  | rule :: rules => by
    intro p hp
    obtain ⟨hfindings, hp⟩ := yields_apply hd rule p hp
    obtain ⟨hrest, hp⟩ := yields_applyAll file rules _ hp
    refine ⟨?_, hp⟩
    rw [List.flatMap_cons, ← hfindings, ← hrest]
    rfl

end Run

/-- On the tree of any source, rules of any configuration report with one memo between them what
they would report if no value were remembered. -/
theorem reportOn_lower (language : Language) (bytes : ByteArray) (path : String) (root : Concrete)
    (s : RuleSets) (file : String) :
    (s.reportOn (file, lower language bytes path root)).violations =
      s.directViolations file (lower language bytes path root) := by
  have hd := qualifiedNames_lower_nodup language bytes path root
  obtain ⟨hfound, -⟩ := yields_applyAll hd file s.allRules ∅ .empty
  rw [RuleSets.directViolations, ← hfound]
  rfl

end CodeGauge

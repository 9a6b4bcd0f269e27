import CodeGauge.Proofs.DirectListing
import CodeGauge.Proofs.Place

/-!
# Rules and listings agree

A threshold rule without options goes over all operations of a file and then over its types; a
listing goes over the types, each with its own operations, and then over the functions. Both have a
memo and fill it in another order. On a lowered tree either is what it would be without a memo, and
the operations below the root are those of the types and the functions (`Node.perm_operations`), so
the rule reports exactly what the listing shows above the minimum.
-/

namespace CodeGauge

/-- What is said of a declaration by rules and listings alike. -/
structure Mention where
  name : Option QualifiedName
  firstLine : Nat
  lastLine : Nat
  score : String

/-- What is said of a declaration with a value. -/
def Node.mention (n : Node) (value : Float) : Mention :=
  ⟨n.qualifiedName?, n.firstLine, n.lastLine, ThresholdRule.scoreLabel value⟩

def Node.mentionAbove? (minimum : Float) (n : Node) (value : Float) : Option Mention :=
  if minimum < value then some (n.mention value) else none

def Finding.mention (f : Finding) : Mention :=
  ⟨f.node.qualifiedName?, f.node.firstLine, f.node.lastLine, f.score⟩

/-- What a listed declaration says if the metric is listed for it and above the minimum. -/
def OperationMetrics.mentionAbove? (metric : String) (minimum : Float) (e : OperationMetrics) :
    Option Mention := do
  let value ← e.metrics[metric]?
  if minimum < value then
    some ⟨some e.name, e.firstLine, e.lastLine, ThresholdRule.scoreLabel value⟩
  else none

/-- Whether findings are the operations and the types that a listing shows above the minima of a
rule: the operations in any order, the types in that of the listing. -/
structure Agrees (listing : Listing) (metric : String) (r : ThresholdRule)
    (findings : List Finding) : Prop where
  operations :
    ((findings.filter (·.node.kind = .operationDeclaration)).map Finding.mention).Perm
      ((listing.types.flatMap (·.operations) ++ listing.functions).filterMap
        (·.mentionAbove? metric r.minimum))
  types :
    (findings.filter (·.node.kind = .typeDeclaration)).map Finding.mention =
      listing.types.filterMap (·.mentionAbove? metric r.typeMinimum)
  declarations : ∀ f ∈ findings, f.node.isDeclaration

namespace Listing

section Entries

variable {n : Node} {name : QualifiedName} (hname : n.qualifiedName? = some name)

include hname

theorem mentionAbove?_entry {metrics : MetricValues} {metric : String} {value : Float}
    (hvalue : metrics[metric]? = some value) (file : String) (minimum : Float) :
    (entry file n metrics).mentionAbove? metric minimum = n.mentionAbove? minimum value := by
  simp [OperationMetrics.mentionAbove?, Node.mentionAbove?, Node.mention, entry, displayName,
    hvalue, hname]

theorem mentionAbove?_directOperation {k : Metric Id} (hk : k ∈ Metric.ofOperations)
    (hs : k.supports n) (file : String) (minimum : Float) :
    (directOperation file n).mentionAbove? k.name minimum =
      n.mentionAbove? minimum (k.compute n ∅).run :=
  mentionAbove?_entry hname (getElem?_directValues hs hk (by decide) ∅) file minimum

theorem mentionAbove?_directType {k : Metric Id} (hk : k ∈ Metric.ofTypes) (hs : k.supports n)
    (hc : k.name ≠ "CYCLO") (file : String) (mode : Rollup) (minimum : Float) :
    (directType file mode n).mentionAbove? k.name minimum =
      n.mentionAbove? minimum (k.compute n ∅).run :=
  mentionAbove?_entry hname (getElem?_directType hk hs hc file mode) file minimum

theorem mentionAbove?_directRollUp (file : String) (mode : Rollup) (minimum : Float) :
    (directType file mode n).mentionAbove? "CYCLO" minimum =
      n.mentionAbove? minimum (directRollUp mode n) :=
  mentionAbove?_entry hname Std.TreeMap.getElem?_insert_self file minimum

end Entries

theorem operations_directListing (file : String) (mode : Rollup) (root : Node) :
    ((directListing file mode root).types.flatMap (·.operations) ++
        (directListing file mode root).functions).Perm
      ((root.descendantsOfKind .operationDeclaration).map (directOperation file)) := by
  have h := root.perm_operations.symm.map (directOperation file)
  rw [List.map_append, List.map_flatMap] at h
  simp only [directListing, List.flatMap_map, directType]
  exact h

end Listing

namespace ThresholdRule

variable (r : ThresholdRule)

theorem node_of_mem_directlyAbove {target : MetricTarget} {minimum : Float} {value : Node → Float}
    {ns : List Node} {f : Finding} (h : f ∈ r.directlyAbove target minimum value ns) :
    f.node ∈ ns := by
  obtain ⟨n, hn, rfl⟩ := List.mem_map.1 h
  exact (List.mem_filter.1 hn).1

theorem kind_of_mem_directlyAbove {target : MetricTarget} {minimum : Float} {value : Node → Float}
    {root : Node} {kind : Kind} {f : Finding}
    (h : f ∈ r.directlyAbove target minimum value (root.descendantsOfKind kind)) :
    f.node.kind = kind := by
  simpa using (List.mem_filter.1 (r.node_of_mem_directlyAbove h)).2

variable {r} (hskip : r.skipTests = false)

include hskip

theorem map_mention_directlyAbove (target : MetricTarget) (minimum : Float) (value : Node → Float)
    (ns : List Node) :
    (r.directlyAbove target minimum value ns).map Finding.mention =
      ns.filterMap fun n => n.mentionAbove? minimum (value n) := by
  induction ns with
  | nil => rfl
  | cons n ns ih =>
    rw [directlyAbove_cons, List.filterMap_cons, Node.mentionAbove?, ← ih]
    simp only [skips, hskip, Bool.false_and, Bool.false_eq_true, if_false]
    split
    · rfl
    · rfl

/-- If the listed metric is what the rule measures, findings and listing agree. -/
theorem agrees_directFindings {root : Node} {file metric : String} {mode : Rollup}
    (hops : ∀ op ∈ root.descendantsOfKind .operationDeclaration,
      (Listing.directOperation file op).mentionAbove? metric r.minimum =
        op.mentionAbove? r.minimum (r.directOperationValue op))
    (htypes : ∀ t ∈ root.descendantsOfKind .typeDeclaration,
      (Listing.directType file mode t).mentionAbove? metric r.typeMinimum =
        t.mentionAbove? r.typeMinimum (r.directTypeValue t)) :
    Agrees (Listing.directListing file mode root) metric r (r.directFindings root) := by
  have hop {f : Finding} (h : f ∈ r.directlyAbove .operation r.minimum r.directOperationValue
      (root.descendantsOfKind .operationDeclaration)) := r.kind_of_mem_directlyAbove h
  have htype {f : Finding} (h : f ∈ r.directlyAbove .type r.typeMinimum r.directTypeValue
      (root.descendantsOfKind .typeDeclaration)) := r.kind_of_mem_directlyAbove h
  constructor
  · rw [directFindings, List.filter_append, List.filter_eq_self.2 fun f hf => by simp [hop hf],
      List.filter_eq_nil_iff.2 fun f hf => by simp [htype hf], List.append_nil,
      map_mention_directlyAbove hskip]
    have hlisted := (Listing.operations_directListing file mode root).filterMap
      (·.mentionAbove? metric r.minimum)
    exact (hlisted.trans (.of_eq (List.filterMap_map.trans (List.filterMap_congr hops)))).symm
  · rw [directFindings, List.filter_append, List.filter_eq_nil_iff.2 fun f hf => by simp [hop hf],
      List.filter_eq_self.2 fun f hf => by simp [htype hf], List.nil_append,
      map_mention_directlyAbove hskip]
    exact (List.filterMap_map.trans (List.filterMap_congr htypes)).symm
  · intro f hf
    rcases List.mem_append.1 hf with hf | hf
    · simp [Node.isDeclaration, hop hf, Kind.isDeclaration]
    · simp [Node.isDeclaration, htype hf, Kind.isDeclaration]

end ThresholdRule

section Lower

variable (language : Language) (bytes : ByteArray) (path : String) (root : Concrete)

variable {language bytes path root}

theorem named_of_mem_descendantsOfKind {n : Node} {kind : Kind} (hk : kind.isDeclaration)
    (h : n ∈ (lower language bytes path root).descendantsOfKind kind) :
    n.kind = kind ∧ ∃ name, n.qualifiedName? = some name := by
  have hkind : n.kind = kind := by simpa using (List.mem_filter.1 h).2
  have hn := Node.mem_nodes_of_mem_descendantsOfKind h
  refine ⟨hkind, Option.isSome_iff_exists.1 ?_⟩
  rw [qualifiedName?_lower language bytes path root hn,
    qualified_isSome_lower language bytes path root hn, Node.isDeclaration, hkind]
  exact hk

variable (language bytes path root)

/-- On the tree of any source, whatever rules went before with the same memo, the complexity rule
and the statement rule report exactly the operations and types that a listing with the rule's
roll-up shows above the rule's minima, each with the listed value. -/
theorem findings_agree_with_listing (file : String) (before : List Rule) (mode : Rollup)
    (minimum typeMinimum : Float) (priority : Priority) :
    let tree := lower language bytes path root
    let memo := (RuleSets.applyAll file tree before ∅).2
    let listing := (Listing.collect file tree mode ∅).1
    let complexity := { ThresholdRule.cyclomaticComplexity with
      measured := .complexity mode, minimum, typeMinimum, priority }
    let statements := { ThresholdRule.ncssCount with minimum, typeMinimum, priority }
    Agrees listing "CYCLO" complexity (complexity.apply tree memo).1 ∧
      Agrees listing "NCSS" statements (statements.apply tree memo).1 := by
  have hd := qualifiedNames_lower_nodup language bytes path root
  obtain ⟨-, hmemo⟩ := yields_applyAll hd file before ∅ .empty
  intro tree memo listing complexity statements
  have hlisting : listing = Listing.directListing file mode tree :=
    Listing.collect_lower language bytes path root file mode
  rw [hlisting, (yields_threshold hd complexity memo hmemo).1,
    (yields_threshold hd statements memo hmemo).1]
  constructor
  · refine ThresholdRule.agrees_directFindings rfl (fun op h => ?_) fun t h => ?_
    · obtain ⟨hk, name, hname⟩ := named_of_mem_descendantsOfKind rfl h
      exact Listing.mentionAbove?_directOperation hname (k := .operationComplexity)
        (by simp [Metric.ofOperations]) (by rw [Metric.supports, hk]; rfl) file minimum
    · obtain ⟨-, name, hname⟩ := named_of_mem_descendantsOfKind rfl h
      exact Listing.mentionAbove?_directRollUp hname file mode typeMinimum
  · refine ThresholdRule.agrees_directFindings rfl (fun op h => ?_) fun t h => ?_
    · obtain ⟨hk, name, hname⟩ := named_of_mem_descendantsOfKind rfl h
      exact Listing.mentionAbove?_directOperation hname (k := .operationStatements)
        (by simp [Metric.ofOperations]) (by rw [Metric.supports, hk]; rfl) file minimum
    · obtain ⟨hk, name, hname⟩ := named_of_mem_descendantsOfKind rfl h
      exact Listing.mentionAbove?_directType hname (k := .typeStatements)
        (by simp [Metric.ofTypes]) (by rw [Metric.supports, hk]; rfl) (by decide) file mode
        typeMinimum

end Lower

end CodeGauge

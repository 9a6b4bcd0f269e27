import CodeGauge.Proofs.DirectRun
import CodeGauge.Proofs.Inquiries

/-!
# Skipped tests

A threshold rule that skips tests does not ask for their values, so it leaves a memo that differs
from the memo of a rule that skips none, and what it asks for later it may have to compute. On a
lowered tree it makes no difference to a value whether it was remembered. So a rule that skips tests
finds what it finds otherwise, without what is on tests (`directFindings_skipping`), and it comes to
the same values on everything else, types with skipped operations among them
(`measurements_skipping`).
-/

namespace CodeGauge

theorem yields_inTurn {ρ : Type} {nodes : List Node} {ask : ρ → ProjectMemo → Float × ProjectMemo}
    {value : ρ → Float} : ∀ rs : List ρ, (∀ r ∈ rs, Yields nodes (ask r) (value r)) →
      Yields nodes (inTurn (m := Id) ask rs) (rs.map value)
  | [], _ => fun _ hp => ⟨rfl, hp⟩
  | r :: rs, h => by
    intro p hp
    obtain ⟨hfirst, hp⟩ := h r List.mem_cons_self p hp
    obtain ⟨hrest, hp⟩ := yields_inTurn rs (fun q hq => h q (List.mem_cons_of_mem _ hq)) _ hp
    rw [inTurn_cons]
    exact ⟨congrArg₂ List.cons hfirst hrest, hp⟩

namespace ThresholdRule

variable (r : ThresholdRule)

/-- The declarations of a kind that a rule does not skip. -/
def looksAt (root : Node) (kind : Kind) : List Node :=
  (root.descendantsOfKind kind).filter (!r.skips ·)

/-- The declarations that a rule does not skip, operations before types, with the values that its
inquiries on them come to in a run of its own. -/
def measurements (root : Node) : List (Node × Float) :=
  (r.looksAt root .operationDeclaration ++ r.looksAt root .typeDeclaration).zip
    (inTurn (m := Id) (Inquiry.run Query.answer) (r.inquiries root) ∅).1

/-- On nodes of different names a rule measures the values that computing gives. -/
theorem measurements_eq {root : Node} (hd : (root.nodes.filterMap (·.qualifiedName?)).Nodup) :
    r.measurements root =
      (r.looksAt root .operationDeclaration).map (fun op => (op, r.directOperationValue op)) ++
        (r.looksAt root .typeDeclaration).map fun type => (type, r.directTypeValue type) := by
  have hmem {kind : Kind} {n : Node} (h : n ∈ r.looksAt root kind) : n ∈ root.nodes :=
    Node.mem_nodes_of_mem_descendantsOfKind (List.mem_filter.1 h).1
  have hoperations := yields_inTurn (r.looksAt root .operationDeclaration) fun op h =>
    yields_operationValue r hd (hmem h)
  have htypes := yields_inTurn (r.looksAt root .typeDeclaration) fun type h =>
    yields_typeValue r hd (hmem h) fun op hop =>
      Node.mem_nodes_of_mem_declaredOperations (hmem h) hop
  obtain ⟨hfirst, hp⟩ := hoperations ∅ .empty
  obtain ⟨hsecond, -⟩ := htypes _ hp
  have hvalues : (inTurn (m := Id) (Inquiry.run Query.answer) (r.inquiries root) ∅).1 =
      (r.looksAt root .operationDeclaration).map r.directOperationValue ++
        (r.looksAt root .typeDeclaration).map r.directTypeValue := by
    have hop : (fun op => (r.operationInquiry op).run Query.answer) = r.operationValue :=
      funext₂ r.run_operationInquiry
    have htype : (fun type => (r.typeInquiry type).run Query.answer) = r.typeValue :=
      funext₂ r.run_typeInquiry
    rw [inquiries, inTurn_append, inTurn_map, inTurn_map, hop, htype]
    exact congrArg₂ _ hfirst hsecond
  rw [measurements, hvalues, List.zip_append (List.length_map _).symm, List.map_prod_left_eq_zip,
    List.map_prod_left_eq_zip]

/-! ## Skipping -/

theorem looksAt_skipping (root : Node) (kind : Kind) :
    { r with skipTests := true }.looksAt root kind =
      ({ r with skipTests := false }.looksAt root kind).filter (!·.isTest) := by
  unfold looksAt skips
  rw [List.filter_filter]
  exact List.filter_congr fun n _ => by simp

theorem directFindings_skipping (root : Node) :
    { r with skipTests := true }.directFindings root =
      ({ r with skipTests := false }.directFindings root).filter (!·.node.isTest) := by
  have habove (target : MetricTarget) (minimum : Float) (value : Node → Float) (ns : List Node) :
      { r with skipTests := true }.directlyAbove target minimum value ns =
        ({ r with skipTests := false }.directlyAbove target minimum value ns).filter
          (!·.node.isTest) := by
    unfold directlyAbove skips
    rw [List.filter_map, List.filter_filter]
    refine congrArg _ (List.filter_congr fun n _ => ?_)
    simp [finding]
  unfold directFindings
  rw [List.filter_append, ← habove, ← habove]
  rfl

theorem measurements_skipping {root : Node}
    (hd : (root.nodes.filterMap (·.qualifiedName?)).Nodup) :
    { r with skipTests := true }.measurements root =
      ({ r with skipTests := false }.measurements root).filter (!·.1.isTest) := by
  rw [measurements_eq _ hd, measurements_eq _ hd, looksAt_skipping, looksAt_skipping,
    List.filter_append, List.filter_map, List.filter_map]
  rfl

end ThresholdRule

/-- On the tree of any source, a rule of any configuration reports with tests skipped what it
reports otherwise, in the same order and with the same scores and messages, without what is on test
declarations. The values that it comes to on the declarations it does not skip, types among them,
are the same too. -/
theorem skipping_tests_filters (language : Language) (bytes : ByteArray) (path : String)
    (root : Concrete) (r : ThresholdRule) (file : String) :
    let tree := lower language bytes path root
    let all : ThresholdRule := { r with skipTests := false }
    let skipping : ThresholdRule := { r with skipTests := true }
    let report (f : Finding) : Violation := .on file (.threshold r) f.node f.score f.message
    (RuleSets.applyAll file tree [.threshold all] ∅).1 = (all.apply tree ∅).1.map report ∧
    (RuleSets.applyAll file tree [.threshold skipping] ∅).1 =
      ((all.apply tree ∅).1.filter (!·.node.isTest)).map report ∧
    skipping.measurements tree = (all.measurements tree).filter (!·.1.isTest) := by
  intro tree all skipping report
  have hd := qualifiedNames_lower_nodup language bytes path root
  have hfindings : (skipping.apply tree ∅).1 = (all.apply tree ∅).1.filter (!·.node.isTest) := by
    rw [(yields_threshold hd skipping ∅ .empty).1, (yields_threshold hd all ∅ .empty).1]
    exact r.directFindings_skipping tree
  refine ⟨List.append_nil _, ?_, r.measurements_skipping hd⟩
  rw [← hfindings]
  exact List.append_nil _

end CodeGauge

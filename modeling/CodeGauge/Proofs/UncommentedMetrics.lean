import CodeGauge.Proofs.DirectListing
import CodeGauge.Proofs.UncommentedLowering

/-!
# Metrics without comments

Nodes below a comment are of no kind in a lowered tree (`commentsSilent_lower`), so no walk that
looks for nodes of a kind finds one there: without the comments it finds the same nodes in the same
order (`filter_nodesBelow_uncommented`). Every metric and every test mark is found by such walks.
-/

namespace CodeGauge

namespace Node

/-- Whether what is below comments is of no kind. -/
def CommentsSilent (n : Node) : Prop :=
  ∀ m ∈ n.nodes, m.isComment → ∀ k ∈ m.nodes, k.kind = .other

theorem mem_nodes_self (n : Node) : n ∈ n.nodes := List.mem_cons_self

theorem CommentsSilent.of_mem {n m : Node} (h : n.CommentsSilent) (hm : m ∈ n.nodes) :
    m.CommentsSilent := by
  intro x hx
  refine h x ?_
  rw [nodes_eq] at hm hx ⊢
  exact mem_preorder_trans hx n hm

theorem mem_nodes_of_mem_children {n m : Node} (h : m ∈ n.children) : m ∈ n.nodes := by
  obtain ⟨before, after, hc⟩ := List.append_of_mem h
  rw [nodes, descendants_eq, hc, preorders_append, preorders, preorder_eq]
  simp

theorem CommentsSilent.kind_of_isComment {n m : Node} (h : n.CommentsSilent)
    (hm : m ∈ n.children) (hc : m.isComment) : m.kind = .other :=
  h m (mem_nodes_of_mem_children hm) hc m m.mem_nodes_self

/-! ## What a node keeps -/

theorem uncommentedAll_eq (ns : List Node) :
    uncommentedAll ns = (ns.filter (!·.isComment)).map uncommented := by
  induction ns with
  | nil => rw [uncommentedAll]; rfl
  | cons n ns ih =>
    rw [uncommentedAll, List.filter_cons, ih]
    cases n.isComment <;> rfl

@[simp] theorem head_uncommented (n : Node) : n.uncommented.head = n.head := by
  cases n; rw [uncommented]; rfl

theorem children_uncommented (n : Node) :
    n.uncommented.children = uncommentedAll n.children := by
  cases n; rw [uncommented]; rfl

@[simp] theorem kind_uncommented (n : Node) : n.uncommented.kind = n.kind :=
  congrArg Header.kind n.head_uncommented

@[simp] theorem name?_uncommented (n : Node) : n.uncommented.name? = n.name? :=
  congrArg Header.name n.head_uncommented

@[simp] theorem span_uncommented (n : Node) : n.uncommented.span = n.span :=
  congrArg Header.span n.head_uncommented

@[simp] theorem qualifiedName?_uncommented (n : Node) :
    n.uncommented.qualifiedName? = n.qualifiedName? := by
  rw [qualifiedName?, qualifiedName?, isDeclaration, isDeclaration, kind_uncommented,
    head_uncommented]

/-! ## Walks for a kind -/

section Walks

variable {p : Kind → Bool} (barrier : Option Kind)

theorem filter_preorder_of_isComment (hp : p .other = false) {n : Node} (h : n.CommentsSilent)
    (hc : n.isComment) : (n.preorder barrier).filter (p ·.kind) = [] := by
  refine List.filter_eq_nil_iff.2 fun m hm => ?_
  have hm : m ∈ n.nodes := by
    rw [nodes_eq]
    exact preorder_subset barrier n hm
  simp [h n n.mem_nodes_self hc m hm, hp]

mutual

theorem filter_preorder_uncommented (hp : p .other = false) :
    ∀ n : Node, n.CommentsSilent →
      (n.uncommented.preorder barrier).filter (p ·.kind) =
        ((n.preorder barrier).filter (p ·.kind)).map uncommented
  | mk head children, h => by
    have hbelow := filter_preorders_uncommented hp children
      fun m hm => h.of_mem (mem_nodes_of_mem_children hm)
    have hhead : (mk head (uncommentedAll children)) = (mk head children).uncommented := by
      rw [uncommented]
    rw [uncommented, preorder, preorder]
    split
    · simp only [List.filter_cons, List.filter_nil, hhead, kind_uncommented]
      split <;> simp
    · simp only [List.filter_cons, hhead, kind_uncommented, hbelow]
      split <;> simp

theorem filter_preorders_uncommented (hp : p .other = false) :
    ∀ ns : List Node, (∀ n ∈ ns, n.CommentsSilent) →
      (preorders barrier (uncommentedAll ns)).filter (p ·.kind) =
        ((preorders barrier ns).filter (p ·.kind)).map uncommented
  | [], _ => by simp [uncommentedAll, preorders]
  | n :: ns, h => by
    have hn := h n List.mem_cons_self
    have hrest := filter_preorders_uncommented hp ns fun m hm => h m (List.mem_cons_of_mem n hm)
    rw [uncommentedAll, preorders, List.filter_append, List.map_append, ← hrest]
    split
    · rename_i hc
      rw [filter_preorder_of_isComment barrier hp hn hc]
      rfl
    · rw [preorders, List.filter_append, filter_preorder_uncommented hp n hn]

end

theorem filter_nodesBelow_uncommented (hp : p .other = false) {n : Node} (h : n.CommentsSilent) :
    (n.uncommented.nodesBelow barrier).filter (p ·.kind) =
      ((n.nodesBelow barrier).filter (p ·.kind)).map uncommented := by
  rw [nodesBelow_eq, nodesBelow_eq, children_uncommented]
  exact filter_preorders_uncommented barrier hp n.children
    fun m hm => h.of_mem (mem_nodes_of_mem_children hm)

theorem countP_nodesBelow_uncommented (hp : p .other = false) {n : Node} (h : n.CommentsSilent) :
    (n.uncommented.nodesBelow barrier).countP (p ·.kind) =
      (n.nodesBelow barrier).countP (p ·.kind) := by
  rw [List.countP_eq_length_filter, filter_nodesBelow_uncommented barrier hp h, List.length_map,
    List.countP_eq_length_filter]

end Walks

variable {n : Node} (h : n.CommentsSilent)

include h

theorem descendantsOfKind_uncommented {kind : Kind} (hk : kind ≠ .other) :
    n.uncommented.descendantsOfKind kind = (n.descendantsOfKind kind).map uncommented :=
  filter_nodesBelow_uncommented (p := fun k => k = kind) none (by simp [hk.symm]) h

theorem declaredOperations_uncommented :
    n.uncommented.declaredOperations = n.declaredOperations.map uncommented :=
  filter_nodesBelow_uncommented (p := fun k => k = .operationDeclaration) _ rfl h

omit h in
theorem childrenOfKind_uncommented' (n : Node) (kind : Kind) :
    n.uncommented.childrenOfKind kind =
      ((n.childrenOfKind kind).filter (!·.isComment)).map uncommented := by
  rw [childrenOfKind, children_uncommented, uncommentedAll_eq, List.filter_map, List.filter_filter,
    childrenOfKind, List.filter_filter]
  congr 2
  funext m
  simp [Bool.and_comm]

theorem childrenOfKind_uncommented {kind : Kind} (hk : kind ≠ .other) :
    n.uncommented.childrenOfKind kind = (n.childrenOfKind kind).map uncommented := by
  rw [childrenOfKind_uncommented', List.filter_eq_self.2 fun m hm => ?_]
  obtain ⟨hm, hkind⟩ := List.mem_filter.1 hm
  cases hc : m.isComment with
  | false => rfl
  | true => simp [h.kind_of_isComment hm hc, hk.symm] at hkind

theorem marks_uncommented : n.uncommented.marks = n.marks.map uncommented := by
  have hbelow (m : Node) (hm : m ∈ n.childrenOfKind .other) :
      m.uncommented.childrenOfKind .mark = (m.childrenOfKind .mark).map uncommented :=
    childrenOfKind_uncommented (h.of_mem (mem_nodes_of_mem_children (List.mem_filter.1 hm).1))
      (by decide)
  have hcomment (m : Node) (hm : m ∈ n.childrenOfKind .other) (hc : ¬(!m.isComment)) :
      m.uncommented.childrenOfKind .mark = [] := by
    have hm' : m ∈ n.nodes := mem_nodes_of_mem_children (List.mem_filter.1 hm).1
    have hnone : m.childrenOfKind .mark = [] := List.filter_eq_nil_iff.2 fun k hk => by
      simp [h m hm' (by simpa using hc) k (mem_nodes_of_mem_children hk)]
    rw [hbelow m hm, hnone, List.map_nil]
  have hother : (n.uncommented.childrenOfKind .other).flatMap (·.childrenOfKind .mark) =
      ((n.childrenOfKind .other).flatMap (·.childrenOfKind .mark)).map uncommented := by
    rw [childrenOfKind_uncommented', List.flatMap_map, flatMap_filter_of_nil hcomment,
      List.map_flatMap]
    exact List.flatMap_congr hbelow
  rw [marks, childrenOfKind_uncommented h (by decide), hother, marks, List.map_append]

theorem isTest_uncommented : n.uncommented.isTest = n.isTest := by
  have hnames : n.uncommented.marks.filterMap (·.name?) = n.marks.filterMap (·.name?) := by
    rw [marks_uncommented h, List.filterMap_map]
    exact List.filterMap_congr fun m _ => m.name?_uncommented
  rw [isTest, isTest, hnames, isDeclaration, isDeclaration, hasTestName, hasTestName,
    kind_uncommented, name?_uncommented]

/-! ## Values -/

theorem statementCount_uncommented : n.uncommented.statementCount = n.statementCount :=
  congrArg (· + 1) (countP_nodesBelow_uncommented
    (p := fun k => k = .statement || k = .branch) none rfl h)

theorem complexity_uncommented (countBoolean : Bool) :
    n.uncommented.complexity countBoolean = n.complexity countBoolean :=
  congrArg (· + 1) (countP_nodesBelow_uncommented
    (p := fun k => k = .branch || (countBoolean && k = .booleanOperator)) _ (by simp) h)

theorem parameterCount_uncommented : n.uncommented.parameterCount = n.parameterCount := by
  rw [parameterCount, childrenOfKind_uncommented h (by decide), List.flatMap_map, parameterCount,
    List.length_flatMap, List.length_flatMap]
  congr 1
  refine List.map_congr_left fun m hm => ?_
  have hm := h.of_mem (mem_nodes_of_mem_children (List.mem_filter.1 hm).1)
  rw [childrenOfKind_uncommented hm (by decide), List.length_map]

theorem operationCount_uncommented (countNested : Bool) :
    n.uncommented.operationCount countNested = n.operationCount countNested := by
  rw [operationCount, descendantsOfKind_uncommented h (by decide),
    declaredOperations_uncommented h, List.length_map, List.length_map, operationCount]

theorem complexityValue_uncommented (options : MetricOptions) :
    Metric.complexityValue options n.uncommented = Metric.complexityValue options n := by
  rw [Metric.complexityValue, complexity_uncommented h, Metric.complexityValue]

/-- Every built-in metric accepts and measures a node as it does without comments. -/
theorem compute_uncommented {k : Metric Id} (hk : k ∈ Metric.builtIn) (options : MetricOptions) :
    k.supports n.uncommented = k.supports n ∧
      k.compute n.uncommented options = k.compute n options := by
  have hfirst : (n.uncommented.firstChildOfKind? .parameterList).isSome =
      (n.firstChildOfKind? .parameterList).isSome := by
    have hlists := childrenOfKind_uncommented h (show Kind.parameterList ≠ .other by decide)
    rw [firstChildOfKind?, firstChildOfKind?, ← List.head?_filter, ← List.head?_filter]
    rw [childrenOfKind, childrenOfKind] at hlists
    rw [hlists, List.head?_map, Option.isSome_map]
  have hweight : n.uncommented.declaredOperations.map (Metric.complexityValue options) =
      n.declaredOperations.map (Metric.complexityValue options) := by
    rw [declaredOperations_uncommented h, List.map_map]
    exact List.map_congr_left fun op hop => complexityValue_uncommented
      (h.of_mem (mem_nodes_of_mem_declaredOperations n.mem_nodes_self hop)) options
  simp only [Metric.builtIn, Metric.ofTypes, Metric.ofOperations, List.cons_append,
    List.nil_append, List.mem_cons, List.not_mem_nil, or_false] at hk
  constructor
  · have haccepts : k.accepts n.uncommented = k.accepts n := by
      rcases hk with rfl | rfl | rfl | rfl | rfl | rfl | rfl | rfl <;> first | rfl | exact hfirst
    rw [Metric.supports, kind_uncommented, haccepts, Metric.supports]
  · rcases hk with rfl | rfl | rfl | rfl | rfl | rfl | rfl | rfl <;>
      simp only [Metric.typeLines, Metric.operationLines, lineCount, span_uncommented,
        Metric.typeStatements, Metric.operationStatements, statementCount_uncommented h,
        Metric.typeOperations, operationCount_uncommented h, Metric.typeWeight, hweight,
        Metric.operationComplexity, complexityValue_uncommented h, Metric.operationParameters,
        parameterCount_uncommented h]

end Node

/-! ## Listings -/

namespace Listing

variable {n : Node} (h : n.CommentsSilent) (file : String)

include h

theorem directValues_uncommented {ks : List (Metric Id)} (hks : ∀ k ∈ ks, k ∈ Metric.builtIn)
    (found : MetricValues) : directValues n.uncommented ks found = directValues n ks found := by
  induction ks generalizing found with
  | nil => rfl
  | cons k ks ih =>
    obtain ⟨hsupports, hcompute⟩ := Node.compute_uncommented h (hks k List.mem_cons_self) ∅
    rw [directValues_cons, hsupports, hcompute, ih fun k' h => hks k' (List.mem_cons_of_mem k h),
      directValues_cons]

omit h in
theorem entry_uncommented (n : Node) (metrics : MetricValues) :
    entry file n.uncommented metrics = entry file n metrics := by
  simp [entry, displayName, Node.firstLine, Node.lastLine]

theorem directOperation_uncommented :
    directOperation file n.uncommented = directOperation file n := by
  rw [directOperation, entry_uncommented, directOperation,
    directValues_uncommented h fun _ hk => List.mem_append_right _ hk]

theorem map_directOperation_uncommented :
    n.uncommented.declaredOperations.map (directOperation file) =
      n.declaredOperations.map (directOperation file) := by
  rw [Node.declaredOperations_uncommented h, List.map_map]
  exact List.map_congr_left fun op hop => directOperation_uncommented
    (h.of_mem (Node.mem_nodes_of_mem_declaredOperations n.mem_nodes_self hop)) file

theorem directType_uncommented (mode : Rollup) :
    directType file mode n.uncommented = directType file mode n := by
  have hop (op : Node) (hop : op ∈ n.declaredOperations) :=
    Node.compute_uncommented (k := .operationComplexity)
      (h.of_mem (Node.mem_nodes_of_mem_declaredOperations n.mem_nodes_self hop))
      (by simp [Metric.builtIn, Metric.ofOperations]) ∅
  have hsupported : n.uncommented.declaredOperations.filter
        (Metric.operationComplexity (m := Id)).supports =
      (n.declaredOperations.filter (Metric.operationComplexity (m := Id)).supports).map
        Node.uncommented := by
    rw [Node.declaredOperations_uncommented h, List.filter_map]
    exact congrArg _ (List.filter_congr fun op h => (hop op h).1)
  have hrolled : directRollUp mode n.uncommented = directRollUp mode n := by
    simp only [directRollUp, hsupported, List.map_map]
    congr 2
    exact List.map_congr_left fun op h =>
      congrArg Id.run (hop op (List.mem_filter.1 h).1).2
  rw [directType, entry_uncommented, map_directOperation_uncommented h, hrolled, directType,
    directValues_uncommented h fun _ hk => List.mem_append_left _ hk]

theorem directListing_uncommented (mode : Rollup) :
    directListing file mode n.uncommented = directListing file mode n := by
  rw [directListing, Node.descendantsOfKind_uncommented h (by decide), List.map_map,
    map_directOperation_uncommented h, directListing]
  congr 1
  exact List.map_congr_left fun type ht => directType_uncommented
    (h.of_mem (Node.mem_nodes_of_mem_descendantsOfKind ht)) file mode

end Listing

/-! ## Lowered trees -/

open Lowering

theorem Lowering.commentsSilent_loweredAll (file : SourceFile) {sites : List Site}
    (h : ∀ s ∈ sites, s.CommentsAside file.language) (scope : Option String) (taken : TakenNames) :
    ∀ n ∈ Node.preorders none (loweredAll file scope taken sites).1,
      n.isComment → ∀ m ∈ n.nodes, m.kind = .other := by
  induction sites using sites_induction file.language generalizing scope taken with
  | nil => simp [Node.preorders]
  | cons s rest ihchildren ihrest =>
    intro n hn hc
    have hs := h s List.mem_cons_self
    rw [loweredAll_cons, Node.preorders, Node.preorder_eq, List.cons_append, List.mem_cons,
      List.mem_append, Node.entered_none] at hn
    rcases hn with rfl | hn | hn
    · have hcomment : s.node.isComment := by
        rw [lowered_eq] at hc
        exact hc
      exact ((silent_of_isComment hs hcomment).lowered file scope taken).1
    · rw [lowered_eq] at hn
      exact ihchildren (fun c => childSites_commentsAside hs) _ _ n hn hc
    · exact ihrest (fun t ht => h t (List.mem_cons_of_mem s ht)) _ _ n hn hc

theorem commentsSilent_lower {language : Language} {root : Concrete}
    (h : CommentsAside language root) (bytes : ByteArray) (path : String) :
    (lower language bytes path root).CommentsSilent := by
  have hroot : ∀ s ∈ [Site.root root], s.CommentsAside language := by simpa using h.root
  rw [Node.CommentsSilent, nodes_lower]
  exact commentsSilent_loweredAll (.ofTree language bytes path root) hroot none ∅

/-- A tree is lowered without its comments to what it is lowered to with them, less the nodes of the
comments. Every other node keeps what it says about itself, whether it is a test and what each
metric makes of it, and the listing of the file stays the same. -/
theorem lower_without_comments {language : Language} {root : Concrete}
    (h : CommentsAside language root) (bytes : ByteArray) (path : String) :
    let tree := lower language bytes path root
    let bare := lower language bytes path root.uncommented
    bare = tree.uncommented ∧
    (∀ n ∈ tree.nodes, n.uncommented.isTest = n.isTest ∧
      ∀ k ∈ Metric.builtIn, ∀ options, k.supports n.uncommented = k.supports n ∧
        k.compute n.uncommented options = k.compute n options) ∧
    ∀ file mode, (Listing.collect file bare mode ∅).1 = (Listing.collect file tree mode ∅).1 := by
  intro tree bare
  have hbare : bare = tree.uncommented := lower_uncommented h bytes path
  have hsilent : tree.CommentsSilent := commentsSilent_lower h bytes path
  refine ⟨hbare, fun n hn => ⟨Node.isTest_uncommented (hsilent.of_mem hn), fun k hk options =>
    Node.compute_uncommented (hsilent.of_mem hn) hk options⟩, fun file mode => ?_⟩
  rw [Listing.collect_lower, Listing.collect_lower]
  change Listing.directListing file mode bare = Listing.directListing file mode tree
  rw [hbare, Listing.directListing_uncommented hsilent]

namespace Lowering

def documentedSource : ByteArray := "#[test]\n/// d\nfn f() \x7b\x7d\n".toUTF8

/-- A function with a documentation comment between it and its attribute. -/
def documentedTree : Concrete :=
  .mk ⟨"source_file", true, none, 0, 24, 0, 3⟩
    [.mk (row "attribute_item" none 0 7 0)
      [.mk (row "attribute" none 2 6 0) [.mk (row "identifier" none 2 6 0) []]],
     .mk ⟨"line_comment", true, none, 8, 14, 1, 2⟩
      [.mk (row "outer_doc_comment_marker" (some "outer") 10 11 1) [],
       .mk ⟨"doc_comment", true, some "doc", 11, 14, 1, 2⟩ []],
     .mk (row "function_item" none 14 23 2)
      [.mk (row "identifier" (some "name") 17 18 2) [],
       .mk (row "parameters" (some "parameters") 18 20 2) [],
       .mk (row "block" (some "body") 21 23 2) []]]

/-- The function is found to be a test across the comment and without it. -/
theorem documented_test_without_comments :
    CommentsAside .rust documentedTree ∧
    let tree := lower .rust documentedSource "src/lib.rs" documentedTree
    let bare := lower .rust documentedSource "src/lib.rs" documentedTree.uncommented
    bare = tree.uncommented ∧ tree.nodes.map (·.isTest) =
      [false, false, false, false, false, false, false, true, false, false, false,
        false, false, false] ∧
    ∀ n ∈ tree.nodes, n.uncommented.isTest = n.isTest := by
  have h : CommentsAside .rust documentedTree := ⟨by decide, by decide, by decide⟩
  obtain ⟨hbare, hsame, -⟩ := lower_without_comments h documentedSource "src/lib.rs"
  exact ⟨h, hbare, by decide +kernel, fun n hn => (hsame n hn).1⟩

def spreadSource : ByteArray := "class C \x7b void h(final /*c*/ int... xs) \x7b\x7d \x7d".toUTF8

/-- A method with a comment before the type of its variable parameter. -/
def spreadTree : Concrete :=
  .mk (row "program" none 0 44 0)
    [.mk (row "class_declaration" none 0 44 0)
      [.mk (row "identifier" (some "name") 6 7 0) [],
       .mk (row "class_body" (some "body") 8 44 0)
        [.mk (row "method_declaration" none 10 42 0)
          [.mk (row "void_type" (some "type") 10 14 0) [],
           .mk (row "identifier" (some "name") 15 16 0) [],
           .mk (row "formal_parameters" (some "parameters") 16 39 0)
            [.mk (row "spread_parameter" none 17 38 0)
              [.mk (row "modifiers" none 17 22 0) [],
               .mk (row "block_comment" none 23 28 0) [],
               .mk (row "integral_type" none 29 32 0) [],
               .mk (row "variable_declarator" none 36 38 0)
                [.mk (row "identifier" (some "name") 36 38 0) []]]],
           .mk (row "block" (some "body") 40 42 0) []]]]]

/-- The comment takes the place of the type in the qualified name. -/
theorem comment_named_as_type :
    let tree := lower .java spreadSource "src/A.java" spreadTree
    let bare := lower .java spreadSource "src/A.java" spreadTree.uncommented
    tree.uncommented.nodes.filterMap (·.qualifiedName?) = ["C", "C#h(/*c*/...)"] ∧
    bare.nodes.filterMap (·.qualifiedName?) = ["C", "C#h(int...)"] ∧ bare ≠ tree.uncommented := by
  intro tree bare
  have htree : tree.uncommented.nodes.filterMap (·.qualifiedName?) = ["C", "C#h(/*c*/...)"] := by
    decide +kernel
  have hbare : bare.nodes.filterMap (·.qualifiedName?) = ["C", "C#h(int...)"] := by
    decide +kernel
  refine ⟨htree, hbare, fun heq => ?_⟩
  rw [heq, htree] at hbare
  exact absurd hbare (by decide)

end Lowering

end CodeGauge

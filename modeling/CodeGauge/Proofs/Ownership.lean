import CodeGauge.Proofs.DistinctNames
import CodeGauge.Proofs.Place

/-!
# Operations and the types they are named after

Which type an operation is named after is decided when it is lowered, and which type it belongs to
by where its node stands. A `Visit` is a site where lowering comes to it, with what surrounds it
there: the innermost scope, the names taken, and the innermost type.

An operation belongs to the innermost type around it and to no other (`mem_operations_iff`). No two
names that are given out are the same, whether a node bears them or not, so if a scope has the name
of a type it is the scope of that type, and a name under a scope is a name under the type that the
operation belongs to. A receiver says nothing about where an operation stands: an operation that is
named after one belongs to its type only if it is written inside it.
-/

namespace CodeGauge

namespace Lowering

/-- What surrounds a site when lowering comes to it. -/
structure Around where
  /-- The innermost scope. -/
  scope : Option String
  /-- The names given out so far. -/
  taken : TakenNames
  /-- The node of the innermost type. -/
  type : Option Node

/-- A site where lowering comes to it. -/
structure Visit extends Around where
  site : Site

variable (file : SourceFile)

namespace Visit

variable (v : Visit)

def kind : Kind := file.language.classify v.site

/-- The name given at a site. -/
def name : Option QualifiedName := given file v.scope v.taken v.site

/-- What the site is lowered to. -/
def node : Node := (lowered file v.scope v.taken v.site).1

/-- The receiver's type of an operation that has one. -/
def receiver? : Option String := file.language.operationOwner? file.bytes v.site.node

/-- What an operation is named after: its receiver's type in the module, or else the scope, or the
module outside all scopes. -/
def owner : QualifiedName :=
  ((v.receiver? file).map (QualifiedName.nested file.moduleName)).getD
    (v.scope.getD file.moduleName)

/-- What surrounds the children of the site. -/
def inside : Around where
  scope := v.name file <|> v.scope
  taken := (v.name file).elim v.taken v.taken.insert
  type := if v.kind file = .typeDeclaration then some (v.node file) else v.type

/-- What surrounds the sites that follow. -/
def past : Around := { v.toAround with taken := (lowered file v.scope v.taken v.site).2 }

end Visit

/-- The visits to several sites and all below them, in the order of lowering. -/
def visitsAll (a : Around) : List Site → List Visit
  | [] => []
  | s :: rest =>
    let v : Visit := { a with site := s }
    v :: visitsAll (v.inside file) (childSites file.language s) ++ visitsAll (v.past file) rest
termination_by sites => weights file.language sites
decreasing_by
  · rw [weights_cons, weight_eq]
    omega
  · have := weight_pos file.language s
    rw [weights_cons]
    omega

/-- What several sites are lowered to. -/
def nodesOf (a : Around) (sites : List Site) : List Node :=
  (loweredAll file a.scope a.taken sites).1

@[simp] theorem visitsAll_nil (a : Around) : visitsAll file a [] = [] := by
  rw [visitsAll]

theorem visitsAll_cons (a : Around) (s : Site) (rest : List Site) :
    visitsAll file a (s :: rest) =
      let v : Visit := { a with site := s }
      v :: visitsAll file (v.inside file) (childSites file.language s) ++
        visitsAll file (v.past file) rest := by
  rw [visitsAll]

theorem mem_visitsAll_cons {a : Around} {s : Site} {rest : List Site} {u : Visit} :
    u ∈ visitsAll file a (s :: rest) ↔
      let v : Visit := { a with site := s }
      u = v ∨ u ∈ visitsAll file (v.inside file) (childSites file.language s) ∨
        u ∈ visitsAll file (v.past file) rest := by
  rw [visitsAll_cons]
  simp only [List.cons_append, List.mem_cons, List.mem_append]

@[simp] theorem nodesOf_nil (a : Around) : nodesOf file a [] = [] := by
  rw [nodesOf, loweredAll_nil]

theorem nodesOf_cons (a : Around) (s : Site) (rest : List Site) :
    nodesOf file a (s :: rest) =
      let v : Visit := { a with site := s }
      v.node file :: nodesOf file (v.past file) rest := by
  rw [nodesOf, loweredAll_cons]
  rfl

namespace Visit

variable {file} (v : Visit)

theorem node_eq :
    v.node file = .mk (header file v.site (v.name file))
      (nodesOf file (v.inside file) (childSites file.language v.site)) := by
  rw [Visit.node, lowered_eq]
  rfl

@[simp] theorem kind_node : (v.node file).kind = v.kind file := by
  rw [node_eq]
  rfl

theorem children_node :
    (v.node file).children =
      nodesOf file (v.inside file) (childSites file.language v.site) := by
  rw [node_eq]
  rfl

theorem past_taken :
    (v.past file).taken =
      (loweredAll file (v.inside file).scope (v.inside file).taken
        (childSites file.language v.site)).2 := by
  rw [Visit.past, lowered_eq]
  rfl

theorem name_isSome (h : v.kind file = .typeDeclaration) : (v.name file).isSome := by
  rw [name, given, Option.isSome_map]
  exact wanted?_isSome file (by rw [Visit.kind] at h; rw [h]; rfl)

/-- A declaration's node bears the name given at its site. -/
theorem qualifiedName?_node (h : (v.kind file).isDeclaration) :
    (v.node file).qualifiedName? = v.name file := by
  rw [Node.qualifiedName?, Node.isDeclaration, kind_node, if_pos h, node_eq]
  exact if_pos h

theorem wanted?_of_operation (h : v.kind file = .operationDeclaration) :
    wanted? file v.scope v.site = some (.operation (v.owner file) (simpleName file v.site)
      (file.language.parameterTypes file.bytes v.site.node)) := by
  rw [kind] at h
  rw [wanted?, h]
  rfl

end Visit

/-- Lowering makes one node of each visit, in the order of the tree. -/
theorem map_node_visitsAll (sites : List Site) : ∀ a : Around,
    (visitsAll file a sites).map (·.node file) = Node.preorders none (nodesOf file a sites) := by
  induction sites using sites_induction file.language with
  | nil => intro a; simp [Node.preorders]
  | cons s rest ihchildren ihrest =>
    intro a
    rw [visitsAll_cons, nodesOf_cons, Node.preorders, Node.preorder_eq, Node.entered_none,
      Visit.children_node, ← ihchildren, ← ihrest, ← List.map_cons, ← List.map_append]

/-! ## Names -/

theorem handed_name (v : Visit) :
    Handed v.taken (v.name file).toList (v.inside file).taken := by
  rw [Visit.inside]
  rcases hw : wanted? file v.scope v.site with _ | wanted
  · rw [Visit.name, given, hw]
    exact .nothing v.taken
  · rw [Visit.name, given, hw]
    exact .insert (TakenNames.free_notMem v.taken wanted) (.inl rfl)

/-- What is given out over a stretch of lowering, scopes that declare nothing included. -/
theorem handed_visitsAll (sites : List Site) : ∀ a : Around,
    Handed a.taken ((visitsAll file a sites).filterMap (·.name file))
      (loweredAll file a.scope a.taken sites).2 := by
  induction sites using sites_induction file.language with
  | nil =>
    intro a
    rw [visitsAll_nil, loweredAll_nil]
    exact .nothing a.taken
  | cons s rest ihchildren ihrest =>
    intro a
    have hbelow := ihchildren (({ a with site := s } : Visit).inside file)
    rw [← Visit.past_taken] at hbelow
    have hall := ((handed_name file { a with site := s }).append hbelow).append (ihrest _)
    rw [visitsAll_cons, loweredAll_cons, List.filterMap_append, filterMap_cons_toList]
    exact hall

/-! ## Scopes and types -/

/-- A visit of a stretch has the scope and the type around the stretch, or else its scope is the
name given at another visit, whose node is its type if it is one. -/
theorem opener_of_mem_visitsAll (sites : List Site) : ∀ a : Around,
    ∀ v ∈ visitsAll file a sites,
      (v.scope = a.scope ∧ v.type = a.type) ∨
        ∃ u ∈ visitsAll file a sites, ∃ q, v.scope = some q ∧ u.name file = some q ∧
          (u.kind file = .typeDeclaration → v.type = some (u.node file)) := by
  induction sites using sites_induction file.language with
  | nil => simp
  | cons s rest ihchildren ihrest =>
    intro a v hv
    let w : Visit := { a with site := s }
    simp only [mem_visitsAll_cons] at hv ⊢
    rcases hv with rfl | hv | hv
    · exact .inl ⟨rfl, rfl⟩
    · rcases ihchildren _ v hv with ⟨hscope, htype⟩ | ⟨u, hu, h⟩
      -- inside the head site: it opened the scope if it has a name, and otherwise it is no type
      · rcases hname : w.name file with _ | q
        · have hk : w.kind file ≠ .typeDeclaration := fun hk => by
            simpa [hname] using w.name_isSome hk
          exact .inl ⟨by rw [hscope, Visit.inside, hname]; rfl, htype.trans (if_neg hk)⟩
        · refine .inr ⟨w, .inl rfl, q, ?_, hname, fun hk => htype.trans (if_pos hk)⟩
          rw [hscope, Visit.inside, hname]
          rfl
      · exact .inr ⟨u, .inr (.inl hu), h⟩
    · rcases ihrest _ v hv with h | ⟨u, hu, h⟩
      · exact .inl h
      · exact .inr ⟨u, .inr (.inr hu), h⟩

/-- A node of a stretch stands in it with no type between, or else belongs to the type around it. -/
theorem region_of_mem_visitsAll (sites : List Site) : ∀ a : Around,
    ∀ v ∈ visitsAll file a sites,
      (v.type = a.type ∧
        v.node file ∈ Node.preorders (some .typeDeclaration) (nodesOf file a sites)) ∨
      ∃ t ∈ Node.preorders none (nodesOf file a sites), v.type = some t ∧
        t.kind = .typeDeclaration ∧ v.node file ∈ t.descendantsWithin .typeDeclaration := by
  induction sites using sites_induction file.language with
  | nil => simp
  | cons s rest ihchildren ihrest =>
    intro a v hv
    let w : Visit := { a with site := s }
    rw [nodesOf_cons]
    simp only [List.cons_append, List.mem_cons, List.mem_append, Node.preorders,
      Node.preorder_eq, Node.entered_none, Visit.children_node]
    rcases mem_visitsAll_cons file |>.1 hv with rfl | hv | hv
    · exact .inl ⟨rfl, .inl rfl⟩
    · rcases ihchildren _ v hv with ⟨htype, hmem⟩ | ⟨t, ht, h⟩
      -- inside the head site with no type between: the head site is that type or is passed
      · by_cases hk : w.kind file = .typeDeclaration
        · refine .inr ⟨w.node file, .inl rfl, htype.trans (if_pos hk), by simpa using hk, ?_⟩
          rw [Node.descendantsWithin, Node.nodesBelow_eq, Visit.children_node]
          exact hmem
        · refine .inl ⟨htype.trans (if_neg hk), .inr (.inl ?_)⟩
          rw [Node.entered, if_neg (by simpa [eq_comm] using hk), Visit.children_node]
          exact hmem
      · exact .inr ⟨t, .inr (.inl ht), h⟩
    · rcases ihrest _ v hv with ⟨htype, hmem⟩ | ⟨t, ht, h⟩
      · exact .inl ⟨htype, .inr (.inr hmem)⟩
      · exact .inr ⟨t, .inr (.inr ht), h⟩

end Lowering

/-! ## One type for each operation -/

section Unique

variable {root : Node} (hd : (root.nodes.filterMap (·.qualifiedName?)).Nodup)
  (hnamed : ∀ n ∈ root.nodes, n.isDeclaration → n.qualifiedName?.isSome)

include hd hnamed

theorem nodup_operations :
    ((root.nodes.filter (·.kind = .typeDeclaration)).flatMap Node.declaredOperations ++
      (root.preorder (some .typeDeclaration)).filter (·.kind = .operationDeclaration)).Nodup := by
  have hsplit := (Node.splits_located root).nodes
  rw [Node.map_snd_located, Node.map_snd_located, ← Node.nodes_eq] at hsplit
  have hnames : ((root.nodes.filter (·.kind = .operationDeclaration)).filterMap
      (·.qualifiedName?)).Nodup := hd.sublist (List.filter_sublist.filterMap _)
  refine hsplit.nodup_iff.1 (nodup_of_nodup_filterMap hnames fun n hn => ?_)
  obtain ⟨hn, hk⟩ := List.mem_filter.1 hn
  refine hnamed n hn ?_
  rw [Node.isDeclaration, of_decide_eq_true hk]
  rfl

/-- No operation belongs to two types. -/
theorem eq_of_mem_declaredOperations {t t' op : Node} (ht : t ∈ root.nodes)
    (hk : t.kind = .typeDeclaration) (ht' : t' ∈ root.nodes) (hk' : t'.kind = .typeDeclaration)
    (h : op ∈ t.declaredOperations) (h' : op ∈ t'.declaredOperations) : t = t' := by
  have hpairwise := (List.nodup_flatMap.1 (List.nodup_append.1 (nodup_operations hd hnamed)).1).2
  have : Std.Symm (Function.onFun List.Disjoint Node.declaredOperations) :=
    ⟨fun _ _ hab op h h' => hab h' h⟩
  by_contra hne
  have hdisjoint := hpairwise.forall (List.mem_filter.2 ⟨ht, by simpa using hk⟩)
    (List.mem_filter.2 ⟨ht', by simpa using hk'⟩) hne
  exact hdisjoint h h'

/-- No operation of a type can be reached from the root without passing a type. -/
theorem notMem_declaredOperations {t op : Node} (ht : t ∈ root.nodes)
    (hk : t.kind = .typeDeclaration) (h : op ∈ root.preorder (some .typeDeclaration))
    (hop : op.kind = .operationDeclaration) : op ∉ t.declaredOperations := by
  intro hmem
  have htypes : op ∈ (root.nodes.filter (·.kind = .typeDeclaration)).flatMap
      Node.declaredOperations :=
    List.mem_flatMap.2 ⟨t, List.mem_filter.2 ⟨ht, by simpa using hk⟩, hmem⟩
  have htop : op ∈ (root.preorder (some .typeDeclaration)).filter
      (·.kind = .operationDeclaration) := List.mem_filter.2 ⟨h, by simpa using hop⟩
  exact (List.nodup_append.1 (nodup_operations hd hnamed)).2.2 op htypes op htop rfl

end Unique

namespace Lowering

/-- The visits to the sites of a tree. -/
def visits (file : SourceFile) (root : Concrete) : List Visit :=
  visitsAll file ⟨none, ∅, none⟩ [.root root]

section Tree

variable {file : SourceFile} {root : Concrete} {tree : Node}
  (htree : nodesOf file ⟨none, ∅, none⟩ [.root root] = [tree])

include htree

theorem map_node_visits : (visits file root).map (·.node file) = tree.nodes := by
  rw [visits, map_node_visitsAll, htree, Node.nodes_eq]
  simp [Node.preorders]

variable (hd : (tree.nodes.filterMap (·.qualifiedName?)).Nodup)
  (hnamed : ∀ n ∈ tree.nodes, n.isDeclaration → n.qualifiedName?.isSome)
  {v : Visit} (hv : v ∈ visits file root)

include hv

/-- If a scope has the name of a type, the innermost type inside the scope is that one. -/
theorem type_of_scope {t : Node} (ht : t ∈ tree.nodes) (hk : t.kind = .typeDeclaration)
    {q : QualifiedName} (hscope : v.scope = some q) (hq : t.qualifiedName? = some q) :
    v.type = some t := by
  rcases opener_of_mem_visitsAll file _ _ v hv with ⟨hnone, -⟩ | ⟨u, hu, q', hq', hname, htype⟩
  · rw [hscope] at hnone
    cases hnone
  · obtain rfl : q = q' := Option.some.inj (hscope.symm.trans hq')
    rw [← map_node_visits htree] at ht
    obtain ⟨w, hw, rfl⟩ := List.mem_map.1 ht
    rw [Visit.kind_node] at hk
    rw [w.qualifiedName?_node (by rw [hk]; rfl)] at hq
    -- the type and the opener of the scope were given one name, so they are one visit
    have hdistinct := (handed_visitsAll file [.root root] ⟨none, ∅, none⟩).distinct
    obtain rfl := eq_of_nodup_filterMap hdistinct hw hu hq hname
    exact htype hk

include hd hnamed

/-- An operation belongs to the innermost type around it and to no other. -/
theorem mem_operations_iff (hop : v.kind file = .operationDeclaration) {t : Node}
    (ht : t ∈ tree.nodes) (hk : t.kind = .typeDeclaration) :
    v.node file ∈ t.declaredOperations ↔ v.type = some t := by
  have hkind : (v.node file).kind = .operationDeclaration := by rw [Visit.kind_node, hop]
  have hregion := region_of_mem_visitsAll file _ _ v hv
  rw [htree, Node.preorders, Node.preorders, Node.preorders, Node.preorders, List.append_nil,
    List.append_nil, ← Node.nodes_eq] at hregion
  rcases hregion with ⟨htype, hmem⟩ | ⟨t', ht', htype, hk', hmem⟩
  · refine ⟨fun h => absurd h (notMem_declaredOperations hd hnamed ht hk hmem hkind), fun h => ?_⟩
    rw [htype] at h
    cases h
  · have hmem' : v.node file ∈ t'.declaredOperations :=
      List.mem_filter.2 ⟨hmem, by simpa using hkind⟩
    rw [htype, Option.some.injEq]
    constructor
    · exact fun h => eq_of_mem_declaredOperations hd hnamed ht' hk' ht hk hmem' h
    · rintro rfl
      exact hmem'

end Tree

theorem nodesOf_root (language : Language) (bytes : ByteArray) (path : String) (root : Concrete) :
    nodesOf (.ofTree language bytes path root) ⟨none, ∅, none⟩ [.root root] =
      [lower language bytes path root] := by
  rw [nodesOf_cons]
  simp only [nodesOf_nil, lower, tree_eq]
  rfl

/-- An operation is named after its receiver's type or else after the innermost scope. If a type has
the name it is named after, an operation without a receiver belongs to that type, and one with a
receiver only if the type is the innermost one around it. -/
theorem operation_of_named_owner (language : Language) (bytes : ByteArray) (path : String)
    (root : Concrete) :
    let file := SourceFile.ofTree language bytes path root
    let tree := lower language bytes path root
    (visits file root).map (·.node file) = tree.nodes ∧
    ∀ v ∈ visits file root, v.kind file = .operationDeclaration →
      (∃ name parameters, (v.node file).qualifiedName? =
        some (v.taken.free (QualifiedName.operation (v.owner file) name parameters))) ∧
      ∀ type ∈ tree.nodes, type.kind = .typeDeclaration →
        type.qualifiedName? = some (v.owner file) →
        (v.receiver? file = none → v.scope.isSome → v.node file ∈ type.declaredOperations) ∧
        (v.node file ∈ type.declaredOperations ↔ v.type = some type) := by
  intro file tree
  have htree := nodesOf_root language bytes path root
  have hd := qualifiedNames_lower_nodup language bytes path root
  have hnamed : ∀ n ∈ tree.nodes, n.isDeclaration → n.qualifiedName?.isSome := fun n hn h => by
    rw [qualifiedName?_lower language bytes path root hn,
      qualified_isSome_lower language bytes path root hn, h]
  refine ⟨map_node_visits htree, fun v hv hop => ⟨?_, fun type ht hk hq => ?_⟩⟩
  · refine ⟨simpleName file v.site, file.language.parameterTypes file.bytes v.site.node, ?_⟩
    rw [v.qualifiedName?_node (by rw [hop]; rfl), Visit.name, given, v.wanted?_of_operation hop]
    rfl
  · have hiff := mem_operations_iff htree hd hnamed hv hop ht hk
    refine ⟨fun hreceiver hscope => hiff.2 ?_, hiff⟩
    obtain ⟨q, hscope⟩ := Option.isSome_iff_exists.1 hscope
    refine type_of_scope htree hv ht hk hscope ?_
    rw [hq, Visit.owner, hreceiver, hscope]
    rfl

/-! ## A method with a receiver -/

/-- A named node on one line. -/
def row (kind : String) (field : Option String) (start stop line : Nat) : Row :=
  ⟨kind, true, field, start, stop, line, line⟩

def nestedSource : ByteArray := "class T \x7b void m() \x7b\x7d \x7d\n".toUTF8

/-- A class with a method. -/
def nestedTree : Concrete :=
  .mk (row "program" none 0 24 0)
    [.mk (row "class_declaration" none 0 23 0)
      [.mk (row "identifier" (some "name") 6 7 0) [],
       .mk (row "class_body" (some "body") 8 23 0)
        [.mk (row "method_declaration" none 10 21 0)
          [.mk (row "void_type" (some "type") 10 14 0) [],
           .mk (row "identifier" (some "name") 15 16 0) [],
           .mk (row "formal_parameters" (some "parameters") 16 18 0) [],
           .mk (row "block" (some "body") 19 21 0) []]]]]

theorem method_belongs_to_class :
    let file := SourceFile.ofTree .java nestedSource "T.java" nestedTree
    ∃ v ∈ visits file nestedTree, v.kind file = .operationDeclaration ∧
      v.receiver? file = none ∧ v.scope.isSome ∧
      ∃ type ∈ (lower .java nestedSource "T.java" nestedTree).nodes,
        type.qualifiedName? = some (v.owner file) ∧ v.node file ∈ type.declaredOperations := by
  intro file
  have hv : ((visits file nestedTree)[4]?).map (fun v =>
      (v.kind file, v.receiver? file, v.scope.isSome, v.owner file)) =
        some (.operationDeclaration, none, true, "T") := by decide +kernel
  have ht : ((lower .java nestedSource "T.java" nestedTree).nodes[1]?).map (fun t =>
      (t.kind, t.qualifiedName?)) = some (.typeDeclaration, some "T") := by decide +kernel
  obtain ⟨v, hv, hvalues⟩ := Option.map_eq_some_iff.1 hv
  obtain ⟨t, ht, htvalues⟩ := Option.map_eq_some_iff.1 ht
  simp only [Prod.mk.injEq] at hvalues htvalues
  obtain ⟨hop, hreceiver, hscope, howner⟩ := hvalues
  have hv := List.mem_of_getElem? hv
  have ht := List.mem_of_getElem? ht
  have hq : t.qualifiedName? = some (v.owner file) := by rw [htvalues.2, howner]
  have h := (operation_of_named_owner .java nestedSource "T.java" nestedTree).2 v hv hop
  exact ⟨v, hv, hop, hreceiver, hscope, t, ht, hq,
    (h.2 t ht htvalues.1 hq).1 hreceiver hscope⟩

def receiverSource : ByteArray :=
  "package p\ntype T struct\x7b\x7d\nfunc (t T) M() \x7b\x7d\n".toUTF8

/-- A type, and a method of it beside it. -/
def receiverTree : Concrete :=
  .mk ⟨"source_file", true, none, 0, 44, 0, 3⟩
    [.mk (row "package_clause" none 0 9 0) [.mk (row "package_identifier" none 8 9 0) []],
     .mk (row "type_declaration" none 10 25 1)
      [.mk (row "type_spec" none 15 25 1)
        [.mk (row "type_identifier" (some "name") 15 16 1) [],
         .mk (row "struct_type" (some "type") 17 25 1)
          [.mk (row "field_declaration_list" none 23 25 1) []]]],
     .mk (row "method_declaration" none 26 43 2)
      [.mk (row "parameter_list" (some "receiver") 31 36 2)
        [.mk (row "parameter_declaration" none 32 35 2)
          [.mk (row "identifier" (some "name") 32 33 2) [],
           .mk (row "type_identifier" (some "type") 34 35 2) []]],
       .mk (row "field_identifier" (some "name") 37 38 2) [],
       .mk (row "parameter_list" (some "parameters") 38 40 2) [],
       .mk (row "block" (some "body") 41 43 2) []]]

/-- A method beside its type is named after it and does not belong to it. -/
theorem method_outside_its_type :
    let file := SourceFile.ofTree .go receiverSource "svc/main.go" receiverTree
    ∃ v ∈ visits file receiverTree, v.kind file = .operationDeclaration ∧
      v.owner file = "p.T" ∧ (v.node file).qualifiedName? = some "p.T#M()" ∧
      ∃ type ∈ (lower .go receiverSource "svc/main.go" receiverTree).nodes,
        type.kind = .typeDeclaration ∧ type.qualifiedName? = some "p.T" ∧
          v.node file ∉ type.declaredOperations := by
  intro file
  have hv : ((visits file receiverTree)[8]?).map (fun v => (v.kind file, v.owner file)) =
      some (.operationDeclaration, "p.T") := by decide +kernel
  have hname : ((lower .go receiverSource "svc/main.go" receiverTree).nodes[8]?).map
      (·.qualifiedName?) = some (some "p.T#M()") := by decide +kernel
  have ht : ((lower .go receiverSource "svc/main.go" receiverTree).nodes[4]?).map (fun t =>
      (t.kind, t.qualifiedName?, t.declaredOperations.isEmpty)) =
        some (.typeDeclaration, some "p.T", true) := by decide +kernel
  obtain ⟨v, hv, hvalues⟩ := Option.map_eq_some_iff.1 hv
  obtain ⟨t, ht, htvalues⟩ := Option.map_eq_some_iff.1 ht
  simp only [Prod.mk.injEq, List.isEmpty_iff] at hvalues htvalues
  rw [← map_node_visits (nodesOf_root .go receiverSource "svc/main.go" receiverTree),
    List.getElem?_map, hv] at hname
  refine ⟨v, List.mem_of_getElem? hv, hvalues.1, hvalues.2, Option.some.inj hname, t,
    List.mem_of_getElem? ht, htvalues.1, htvalues.2.1, ?_⟩
  rw [htvalues.2.2]
  exact List.not_mem_nil

end Lowering

end CodeGauge

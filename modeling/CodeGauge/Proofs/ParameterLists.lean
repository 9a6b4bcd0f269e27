import CodeGauge.Metric.Catalog
import CodeGauge.Proofs.OwnMarks

/-!
# Parameters before and after lowering

The types in the name of an operation are read off its parameter lists before they are lowered; the
parameters of an operation are counted in its lowered children. The two agree, since lowering adds
nothing but marks to a declaration and nothing at all to a list (`filter_childSites`): what is a
parameter list or a parameter at its site is one in the tree, and the other way round
(`parameterCount_node`).
-/

namespace CodeGauge

namespace Lowering

theorem childSites_of_not_declaration {language : Language} {s : Site}
    (h : (language.classify s).isDeclaration = false) : childSites language s = s.node.sites := by
  rw [childSites, h]
  rfl

/-- The child sites of a kind are the named children of that kind, the marks beside a declaration
apart. -/
theorem filter_childSites (language : Language) (s : Site) {k : Kind} (hk : k ≠ .mark) :
    (childSites language s).filter (language.classify · = k) =
      s.node.sites.filter (language.classify · = k) := by
  by_cases hd : (language.classify s).isDeclaration
  · have hattached : (language.attachedMarks s).filter (language.classify · = k) = [] :=
      List.filter_eq_nil_iff.2 fun a ha => by
        simpa [(Language.classify_attachedMarks ha).1] using hk.symm
    rw [childSites_of_declaration hd, List.filter_append, hattached, List.nil_append]
  · rw [childSites_of_not_declaration (Bool.not_eq_true _ ▸ hd)]

namespace Visit

variable {file : SourceFile} (v : Visit)

theorem length_childrenOfKind {k : Kind} (hk : k ≠ .mark) :
    ((v.node file).childrenOfKind k).length =
      (v.site.node.sites.filter (file.language.classify · = k)).length := by
  obtain ⟨visits, hsites, -, hchildren⟩ := v.childrenOfKind_node k
  rw [hchildren, ← filter_childSites file.language v.site hk, ← hsites, List.length_map,
    List.length_map]

/-- An operation has as many parameters as there are types in its name. -/
theorem parameterCount_node :
    (v.node file).parameterCount =
      (file.language.parameterTypes file.bytes v.site.node).length := by
  obtain ⟨lists, hsites, -, hchildren⟩ := v.childrenOfKind_node .parameterList
  rw [filter_childSites file.language v.site (by decide)] at hsites
  rw [Node.parameterCount, hchildren, Language.parameterTypes, ← hsites, List.flatMap_map,
    List.flatMap_map, List.length_flatMap, List.length_flatMap]
  refine congrArg List.sum (List.map_congr_left fun list _ => ?_)
  rw [list.length_childrenOfKind (by decide), List.length_map]

/-- Parameters are counted where there is a parameter list. -/
theorem supports_operationParameters (h : v.kind file = .operationDeclaration) :
    (Metric.operationParameters : Metric Id).supports (v.node file) ↔
      ∃ c ∈ v.site.node.sites, file.language.classify c = .parameterList := by
  have hkind : (v.node file).kind = .operationDeclaration := by rw [kind_node, h]
  have hsome : ((v.node file).firstChildOfKind? .parameterList).isSome ↔
      0 < ((v.node file).childrenOfKind .parameterList).length := by
    rw [Node.firstChildOfKind?, Node.childrenOfKind, List.find?_isSome, List.length_filter_pos_iff]
  have haccepts : (Metric.operationParameters : Metric Id).supports (v.node file) =
      ((v.node file).firstChildOfKind? .parameterList).isSome := by
    rw [Metric.supports, hkind]
    rfl
  rw [haccepts, hsome, v.length_childrenOfKind (by decide), List.length_filter_pos_iff]
  simp

end Visit

/-- In the tree of any source, an operation has as many parameters as types are put into its
qualified name, and they are counted if one of its named children is a parameter list. -/
theorem parameters_of_operation (language : Language) (bytes : ByteArray) (path : String)
    (root : Concrete) :
    let file := SourceFile.ofTree language bytes path root
    (visits file root).map (·.node file) = (lower language bytes path root).nodes ∧
    ∀ v ∈ visits file root, v.kind file = .operationDeclaration →
      let types := language.parameterTypes bytes v.site.node
      (v.node file).qualifiedName? = some (v.taken.free
        (QualifiedName.operation (v.owner file) (simpleName file v.site) types)) ∧
      (v.node file).parameterCount = types.length ∧
      (∀ options, Metric.operationParameters.compute (v.node file) options =
        (pure (Float.ofNat types.length) : Id Float)) ∧
      ((Metric.operationParameters : Metric Id).supports (v.node file) ↔
        ∃ c ∈ v.site.node.sites, language.classify c = .parameterList) := by
  intro file
  refine ⟨map_node_visits (nodesOf_root language bytes path root), fun v _ hop => ?_⟩
  have hcount : (v.node file).parameterCount =
      (language.parameterTypes bytes v.site.node).length := v.parameterCount_node
  refine ⟨?_, hcount, fun options => ?_, v.supports_operationParameters hop⟩
  · rw [v.qualifiedName?_node (by rw [hop]; rfl), Visit.name, given, v.wanted?_of_operation hop]
    rfl
  · rw [← hcount]
    rfl

/-! ## A receiver, parameters and results -/

def resultsSource : ByteArray :=
  "package p\nfunc (c Cache) Get(key string, sizes ...int) (int, bool) \x7b\x7d\n".toUTF8

/-- A method with three lists, of which the second one holds its parameters. -/
def resultsTree : Concrete :=
  .mk ⟨"source_file", true, none, 0, 70, 0, 2⟩
    [.mk (row "package_clause" none 0 9 0) [.mk (row "package_identifier" none 8 9 0) []],
     .mk (row "method_declaration" none 10 69 1)
      [.mk (row "parameter_list" (some "receiver") 15 24 1)
        [.mk (row "parameter_declaration" none 16 23 1)
          [.mk (row "identifier" (some "name") 16 17 1) [],
           .mk (row "type_identifier" (some "type") 18 23 1) []]],
       .mk (row "field_identifier" (some "name") 25 28 1) [],
       .mk (row "parameter_list" (some "parameters") 28 54 1)
        [.mk (row "parameter_declaration" none 29 39 1)
          [.mk (row "identifier" (some "name") 29 32 1) [],
           .mk (row "type_identifier" (some "type") 33 39 1) []],
         .mk (row "variadic_parameter_declaration" none 41 53 1)
          [.mk (row "identifier" (some "name") 41 46 1) [],
           .mk (row "type_identifier" (some "type") 50 53 1) []]],
       .mk (row "parameter_list" (some "result") 55 66 1)
        [.mk (row "parameter_declaration" none 56 59 1)
          [.mk (row "type_identifier" (some "type") 56 59 1) []],
         .mk (row "parameter_declaration" none 61 65 1)
          [.mk (row "type_identifier" (some "type") 61 65 1) []]],
       .mk (row "block" (some "body") 67 69 1) []]]

theorem method_with_results_parameters :
    let file := SourceFile.ofTree .go resultsSource "cache/cache.go" resultsTree
    ∃ v ∈ visits file resultsTree, v.kind file = .operationDeclaration ∧
      Language.go.parameterTypes resultsSource v.site.node = ["string", "...int"] ∧
      (v.node file).qualifiedName? = some "p.Cache#Get(string,...int)" ∧
      (v.node file).parameterCount = 2 ∧
      (Metric.operationParameters : Metric Id).supports (v.node file) := by
  intro file
  have hv : ((visits file resultsTree)[3]?).map (fun v =>
      (v.kind file, Language.go.parameterTypes resultsSource v.site.node)) =
        some (.operationDeclaration, ["string", "...int"]) := by decide +kernel
  have hname : ((lower .go resultsSource "cache/cache.go" resultsTree).nodes[3]?).map
      (·.qualifiedName?) = some (some "p.Cache#Get(string,...int)") := by decide +kernel
  have hlist : ((visits file resultsTree)[3]?).any (fun v =>
      v.site.node.sites.any (Language.go.classify · = .parameterList)) := by decide +kernel
  obtain ⟨v, hv, hvalues⟩ := Option.map_eq_some_iff.1 hv
  obtain ⟨hop, htypes⟩ := Prod.mk.inj hvalues
  rw [getElem?_nodes_lower hv, Option.map_some, Option.some_inj] at hname
  rw [hv, Option.any_some, List.any_eq_true] at hlist
  have hv := List.mem_of_getElem? hv
  obtain ⟨-, hcount, -, hsupports⟩ :=
    (parameters_of_operation .go resultsSource "cache/cache.go" resultsTree).2 v hv hop
  rw [htypes] at hcount
  exact ⟨v, hv, hop, htypes, hname, hcount, hsupports.2 (by simpa using hlist)⟩

end Lowering

end CodeGauge

import CodeGauge.Tree.TestMark
import CodeGauge.Proofs.Ownership

/-!
# Marks that make a test

Which marks belong to a declaration is told by its language (`ownMarks`): those in its modifiers,
those beside it in a decorated definition, the run of attributes before it, or none. A test mark of
its own always makes a declaration a test. But a declaration is looked at after lowering, where the
child that holds its modifiers has no kind, like many others. So the marks of a member, a field or a
type parameter make it a test as well if they stand in such a child, and so do marks that stand in
the declaration itself (`strayMarks`). A declaration is a test by its name, by a mark of its own or
by a stray one, and by nothing else (`isTest_iff_marks`).

What lowering makes of the children of a site is told by the visits to them (`visitsTo`), and the
name of a mark by its concrete node alone, so the marks that a declaration is looked at by have the
names of the marks that stand at its site (`isTest_node`).
-/

namespace CodeGauge

/-! ## Marks of a declaration -/

theorem Concrete.map_node_sites (c : Concrete) : c.sites.map (·.node) = c.namedChildren := by
  have hfrom (before cs : List Concrete) :
      ((sitesFrom c before cs).filter (·.node.isNamed)).map (·.node) = cs.filter (·.isNamed) := by
    induction cs generalizing before with
    | nil => rfl
    | cons d ds ih =>
      rw [sitesFrom, List.filter_cons, List.filter_cons]
      split
      · rw [List.map_cons, ih]
      · exact ih _
  exact hfrom [] c.children

namespace Rust

/-- Whether a run of attributes goes on past a node. -/
def inRun (c : Concrete) : Bool :=
  ["attribute_item", "line_comment", "block_comment"].contains c.kind

/-- The attributes before an item, in source order, where the siblings before it are given, nearest
first: those of the run that ends at the item. -/
def attributesBefore (before : List Concrete) : List Concrete :=
  (((before.filter (·.isNamed)).takeWhile inRun).filter (·.kind = "attribute_item")).reverse

theorem map_node_attributeRun (parent : Option Concrete) : ∀ (before : List Concrete)
    (found : List Site), (attributeRun parent found before).map (·.node) =
      attributesBefore before ++ found.map (·.node)
  | [], _ => rfl
  | c :: before, found => by
    have ih := map_node_attributeRun parent before
    unfold attributeRun attributesBefore
    rw [List.filter_cons]
    by_cases hn : c.isNamed
    · rw [if_neg (by simp [hn]), if_pos hn, List.takeWhile_cons]
      by_cases hk : c.kind = "attribute_item"
      · simp [inRun, hk, ih, attributesBefore]
      · by_cases hc : c.kind = "line_comment" ∨ c.kind = "block_comment"
        · simp [inRun, hk, hc, ih, attributesBefore]
        · simp [inRun, hk, hc]
    · rw [if_pos (by simp [hn]), if_neg hn]
      exact ih found

end Rust

theorem Java.classify_eq_mark (s : Site) :
    Java.classify s = .mark ↔ ["marker_annotation", "annotation"].contains s.kind := by
  unfold Java.classify
  split <;> simp_all
  -- kinds that also depend on what is below the node, or only on how their names end
  all_goals split <;> nofun

theorem Go.classify_ne_mark (s : Site) : Go.classify s ≠ .mark := by
  unfold Go.classify
  split <;> try decide
  all_goals split <;> decide

namespace Language

/-- The marks that belong to a declaration. -/
def ownMarks : Language → Site → List Concrete
  | java, s => (s.node.namedChildren.filter (·.kind = "modifiers")).flatMap fun c =>
      c.namedChildren.filter fun m => ["marker_annotation", "annotation"].contains m.kind
  | python, s =>
    match s.parent with
    | some parent =>
      if parent.kind = "decorated_definition" then
        parent.namedChildren.filter (·.kind = "decorator")
      else []
    | none => []
  | rust, s => Rust.attributesBefore s.before
  | go, _ => []

variable (language : Language)

def marksIn (s : Site) : List Concrete :=
  (s.node.sites.filter (language.classify · = .mark)).map (·.node)

/-- Whether a child of a declaration holds marks that belong to it. -/
def holdsOwnMarks (c : Site) : Bool := language = java && c.kind = "modifiers"

/-- The marks of others in reach of a declaration: in it, or in a child without a kind of its own
that does not hold the declaration's marks. -/
def strayMarks (s : Site) : List Concrete :=
  language.marksIn s ++
    (s.node.sites.filter fun c =>
      language.classify c = .other && !language.holdsOwnMarks c).flatMap language.marksIn

def marksTest (source : ByteArray) (m : Concrete) : Bool :=
  (language.markName? source m).any Node.isTestMarkName

theorem classify_of_holdsOwnMarks {c : Site} (h : language.holdsOwnMarks c) :
    language.classify c = .other := by
  obtain ⟨rfl, hk⟩ : language = java ∧ c.kind = "modifiers" := by simpa [holdsOwnMarks] using h
  show Java.classify c = .other
  unfold Java.classify
  rw [hk]
  rfl

/-- The marks of a declaration stand beside it or in a child that holds them. -/
theorem ownMarks_eq (s : Site) :
    language.ownMarks s = (language.attachedMarks s).map (·.node) ++
      (s.node.sites.filter language.holdsOwnMarks).flatMap language.marksIn := by
  have hnone (h : language ≠ java) : s.node.sites.filter language.holdsOwnMarks = [] :=
    List.filter_eq_nil_iff.2 fun c _ => by simp [holdsOwnMarks, h]
  cases language with
  | java =>
    have hmarks (c : Site) : java.marksIn c = c.node.namedChildren.filter fun m =>
        ["marker_annotation", "annotation"].contains m.kind := by
      rw [marksIn, ← Concrete.map_node_sites, List.filter_map]
      refine congrArg _ (List.filter_congr fun m _ => ?_)
      rw [Bool.eq_iff_iff, decide_eq_true_iff]
      exact Java.classify_eq_mark m
    have hholds : java.holdsOwnMarks = fun c => decide (c.node.kind = "modifiers") := rfl
    show (s.node.namedChildren.filter (·.kind = "modifiers")).flatMap _ = [] ++ _
    rw [← Concrete.map_node_sites, List.filter_map, List.flatMap_map, List.nil_append, hholds]
    exact congrFun (congrArg _ (funext fun c => (hmarks c).symm)) _
  | python =>
    rw [hnone (by decide), List.flatMap_nil, List.append_nil, ownMarks, attachedMarks,
      Python.attachedMarks]
    cases s.parent with
    | none => rfl
    | some parent =>
      simp only
      split
      · rw [← Concrete.map_node_sites, List.filter_map]
        rfl
      · rfl
  | rust =>
    rw [hnone (by decide), List.flatMap_nil, List.append_nil, ownMarks, attachedMarks,
      Rust.attachedMarks, Rust.map_node_attributeRun, List.map_nil, List.append_nil]
  | go =>
    rw [hnone (by decide)]
    rfl

theorem strayMarks_go (s : Site) : go.strayMarks s = [] := by
  have hmarks (c : Site) : go.marksIn c = [] := by
    refine List.map_eq_nil_iff.2 (List.filter_eq_nil_iff.2 fun m _ => ?_)
    rw [decide_eq_true_iff]
    exact Go.classify_ne_mark m
  simp [strayMarks, hmarks]

/-- The marks that lowering brings into reach of a declaration. -/
def reachedMarks (s : Site) : List Concrete :=
  (language.attachedMarks s).map (·.node) ++ language.marksIn s ++
    (s.node.sites.filter (language.classify · = .other)).flatMap language.marksIn

theorem mem_reachedMarks {s : Site} {m : Concrete} :
    m ∈ language.reachedMarks s ↔ m ∈ language.ownMarks s ∨ m ∈ language.strayMarks s := by
  have hwrappers :
      m ∈ (s.node.sites.filter (language.classify · = .other)).flatMap language.marksIn ↔
        m ∈ (s.node.sites.filter language.holdsOwnMarks).flatMap language.marksIn ∨
        m ∈ (s.node.sites.filter fun c =>
          language.classify c = .other && !language.holdsOwnMarks c).flatMap language.marksIn := by
    simp only [List.mem_flatMap, List.mem_filter, decide_eq_true_eq, Bool.and_eq_true,
      Bool.not_eq_true']
    constructor
    · rintro ⟨c, ⟨hc, hother⟩, hm⟩
      cases hholds : language.holdsOwnMarks c with
      | true => exact .inl ⟨c, ⟨hc, hholds⟩, hm⟩
      | false => exact .inr ⟨c, ⟨hc, hother, hholds⟩, hm⟩
    · rintro (⟨c, ⟨hc, hholds⟩, hm⟩ | ⟨c, ⟨hc, hother, -⟩, hm⟩)
      · exact ⟨c, ⟨hc, language.classify_of_holdsOwnMarks hholds⟩, hm⟩
      · exact ⟨c, ⟨hc, hother⟩, hm⟩
  rw [reachedMarks, ownMarks_eq, strayMarks]
  simp only [List.mem_append, hwrappers]
  exact or_or_or_comm

end Language

/-! ## Marks of a lowered declaration -/

namespace Lowering

theorem childSites_of_declaration {language : Language} {s : Site}
    (h : (language.classify s).isDeclaration) :
    childSites language s = language.attachedMarks s ++ s.node.sites := by
  rw [childSites, if_pos h]

theorem childSites_of_other {language : Language} {s : Site} (h : language.classify s = .other) :
    childSites language s = s.node.sites := by
  rw [childSites, h]
  rfl

variable (file : SourceFile)

/-- The visits to several sites, without what is below them. -/
def visitsTo (a : Around) : List Site → List Visit
  | [] => []
  | s :: rest =>
    let v : Visit := { a with site := s }
    v :: visitsTo (v.past file) rest

theorem map_site_visitsTo : ∀ (sites : List Site) (a : Around),
    (visitsTo file a sites).map (·.site) = sites
  | [], _ => rfl
  | s :: rest, _ => congrArg (s :: ·) (map_site_visitsTo rest _)

theorem map_node_visitsTo : ∀ (sites : List Site) (a : Around),
    (visitsTo file a sites).map (·.node file) = nodesOf file a sites
  | [], a => (nodesOf_nil file a).symm
  | s :: rest, a => by
    rw [nodesOf_cons]
    exact congrArg (_ :: ·) (map_node_visitsTo rest _)

namespace Visit

variable {file} (v : Visit)

/-- The children of a kind are made of the child sites of that kind, one by one. -/
theorem childrenOfKind_node (k : Kind) : ∃ visits : List Visit,
    visits.map (·.site) =
        (childSites file.language v.site).filter (file.language.classify · = k) ∧
      (∀ u ∈ visits, u.kind file = k) ∧
      (v.node file).childrenOfKind k = visits.map (·.node file) := by
  let visits := visitsTo file (v.inside file) (childSites file.language v.site)
  have hsites : visits.map (·.site) = childSites file.language v.site := map_site_visitsTo file _ _
  refine ⟨visits.filter (·.kind file = k), ?_,
    fun u hu => of_decide_eq_true (List.mem_filter.1 hu).2, ?_⟩
  · rw [← hsites, List.filter_map]
    rfl
  · rw [Node.childrenOfKind, children_node, ← map_node_visitsTo, List.filter_map]
    refine congrArg (List.map _) (List.filter_congr fun u _ => ?_)
    exact congrArg (fun kind : Kind => decide (kind = k)) u.kind_node

theorem name?_node (h : v.kind file = .mark) :
    (v.node file).name? = file.language.markName? file.bytes v.site.node := by
  have hclassify : file.language.classify v.site = .mark := h
  rw [node_eq]
  show (header file v.site _).name = _
  rw [header, hclassify]

theorem names_childMarks :
    ((v.node file).childrenOfKind .mark).filterMap (·.name?) =
      (((childSites file.language v.site).filter (file.language.classify · = .mark)).map
        (·.node)).filterMap (file.language.markName? file.bytes) := by
  obtain ⟨visits, hsites, hkind, hchildren⟩ := v.childrenOfKind_node .mark
  rw [hchildren, ← hsites, List.map_map, List.filterMap_map, List.filterMap_map]
  exact List.filterMap_congr fun u hu => u.name?_node (hkind u hu)

section Declaration

variable (h : (v.kind file).isDeclaration)

include h

theorem names_childMarks_of_declaration :
    ((v.node file).childrenOfKind .mark).filterMap (·.name?) =
      ((file.language.attachedMarks v.site).map (·.node) ++
        file.language.marksIn v.site).filterMap (file.language.markName? file.bytes) := by
  have hmarks : (file.language.attachedMarks v.site).filter (file.language.classify · = .mark) =
      file.language.attachedMarks v.site :=
    List.filter_eq_self.2 fun a ha => decide_eq_true (Language.classify_attachedMarks ha).1
  rw [names_childMarks, childSites_of_declaration h, List.filter_append, hmarks, List.map_append]
  rfl

theorem names_wrappedMarks :
    (((v.node file).childrenOfKind .other).flatMap (·.childrenOfKind .mark)).filterMap (·.name?) =
      ((v.site.node.sites.filter (file.language.classify · = .other)).flatMap
        file.language.marksIn).filterMap (file.language.markName? file.bytes) := by
  have hattached : (file.language.attachedMarks v.site).filter
      (file.language.classify · = .other) = [] :=
    List.filter_eq_nil_iff.2 fun a ha => by simp [(Language.classify_attachedMarks ha).1]
  obtain ⟨wrappers, hsites, hkind, hchildren⟩ := v.childrenOfKind_node .other
  rw [childSites_of_declaration h, List.filter_append, hattached, List.nil_append] at hsites
  rw [hchildren, ← hsites, List.flatMap_map, List.flatMap_map, List.filterMap_flatMap,
    List.filterMap_flatMap]
  refine List.flatMap_congr fun u hu => ?_
  rw [names_childMarks, childSites_of_other (hkind u hu)]
  rfl

/-- A declaration is a test by its name or by a mark in its reach. -/
theorem isTest_node :
    (v.node file).isTest ↔ (v.node file).hasTestName ∨
      ∃ m ∈ file.language.reachedMarks v.site, file.language.marksTest file.bytes m := by
  have hd : (v.node file).isDeclaration := by rw [Node.isDeclaration, kind_node, h]
  have hnames : (v.node file).marks.filterMap (·.name?) =
      (file.language.reachedMarks v.site).filterMap (file.language.markName? file.bytes) := by
    rw [Node.marks, List.filterMap_append, v.names_childMarks_of_declaration h,
      v.names_wrappedMarks h, ← List.filterMap_append]
    rfl
  rw [Node.isTest, hd, Bool.true_and, hnames, List.any_filterMap, Bool.or_eq_true,
    List.any_eq_true]
  rfl

end Declaration

end Visit

theorem getElem?_nodes_lower {language : Language} {bytes : ByteArray} {path : String}
    {root : Concrete} {i : Nat} {v : Visit}
    (hv : (visits (.ofTree language bytes path root) root)[i]? = some v) :
    (lower language bytes path root).nodes[i]? =
      some (v.node (.ofTree language bytes path root)) := by
  rw [← map_node_visits (nodesOf_root language bytes path root), List.getElem?_map, hv,
    Option.map_some]

/-- In the tree of any source, a declaration is a test exactly if its name is like that of a test,
one of its own marks names a test, or a stray mark does. Go has no marks. -/
theorem isTest_iff_marks (language : Language) (bytes : ByteArray) (path : String)
    (root : Concrete) :
    let file := SourceFile.ofTree language bytes path root
    (visits file root).map (·.node file) = (lower language bytes path root).nodes ∧
    ∀ v ∈ visits file root, (v.kind file).isDeclaration →
      ((v.node file).isTest ↔ (v.node file).hasTestName ∨
        (∃ m ∈ language.ownMarks v.site, language.marksTest bytes m) ∨
        ∃ m ∈ language.strayMarks v.site, language.marksTest bytes m) ∧
      (language = .go → language.ownMarks v.site = [] ∧ language.strayMarks v.site = []) := by
  intro file
  refine ⟨map_node_visits (nodesOf_root language bytes path root), fun v _ h => ⟨?_, ?_⟩⟩
  · rw [v.isTest_node h]
    simp only [Language.mem_reachedMarks, or_and_right, exists_or]
    rfl
  · rintro rfl
    exact ⟨rfl, Language.strayMarks_go v.site⟩

/-! ## A test in an implementation block -/

def memberSource : ByteArray :=
  "impl Cache \x7b\n    #[test]\n    fn hits() \x7b\x7d\n\x7d\n".toUTF8

/-- An implementation block with a function that has a test attribute. -/
def memberTree : Concrete :=
  .mk ⟨"source_file", true, none, 0, 44, 0, 4⟩
    [.mk ⟨"impl_item", true, none, 0, 43, 0, 3⟩
      [.mk (row "type_identifier" (some "type") 5 10 0) [],
       .mk ⟨"declaration_list", true, some "body", 11, 43, 0, 3⟩
        [.mk (row "attribute_item" none 17 24 1)
          [.mk (row "attribute" none 19 23 1) [.mk (row "identifier" none 19 23 1) []]],
         .mk (row "function_item" none 29 41 2)
          [.mk (row "identifier" (some "name") 32 36 2) [],
           .mk (row "parameters" (some "parameters") 36 38 2) [],
           .mk (row "block" (some "body") 39 41 2) []]]]]

theorem function_marked_by_attribute :
    let file := SourceFile.ofTree .rust memberSource "src/cache.rs" memberTree
    ∃ v ∈ visits file memberTree, (v.kind file).isDeclaration ∧
      (v.node file).name? = some "hits" ∧
      (v.node file).hasTestName = false ∧
      (∃ m ∈ Language.rust.ownMarks v.site, Language.rust.marksTest memberSource m) ∧
      (v.node file).isTest := by
  intro file
  have hv : ((visits file memberTree)[7]?).map (fun v => ((v.kind file).isDeclaration,
      (Language.rust.ownMarks v.site).any (Language.rust.marksTest memberSource))) =
        some (true, true) := by decide +kernel
  have hn : ((lower .rust memberSource "src/cache.rs" memberTree).nodes[7]?).map (fun n =>
      (n.name?, n.hasTestName)) = some (some "hits", false) := by
    decide +kernel
  obtain ⟨v, hv, hvalues⟩ := Option.map_eq_some_iff.1 hv
  rw [getElem?_nodes_lower hv, Option.map_some] at hn
  simp only [Prod.mk.injEq, Option.some.injEq] at hvalues hn
  have hmark := List.any_eq_true.1 hvalues.2
  have hv := List.mem_of_getElem? hv
  have hiff :=
    ((isTest_iff_marks .rust memberSource "src/cache.rs" memberTree).2 v hv hvalues.1).1
  exact ⟨v, hv, hvalues.1, hn.1, hn.2, hmark, hiff.2 (.inr (.inl hmark))⟩

/-- The block around the function has no marks, and is taken for a test too. -/
theorem block_marked_by_member :
    let file := SourceFile.ofTree .rust memberSource "src/cache.rs" memberTree
    ∃ v ∈ visits file memberTree, (v.kind file).isDeclaration ∧
      (v.node file).name? = some "<Cache>" ∧
      (v.node file).hasTestName = false ∧ Language.rust.ownMarks v.site = [] ∧
      ¬((v.node file).isTest ↔
        ∃ m ∈ Language.rust.ownMarks v.site, Language.rust.marksTest memberSource m) := by
  intro file
  have hv : ((visits file memberTree)[1]?).map (fun v => ((v.kind file).isDeclaration,
      (Language.rust.ownMarks v.site).isEmpty)) = some (true, true) := by decide +kernel
  have hn : ((lower .rust memberSource "src/cache.rs" memberTree).nodes[1]?).map (fun n =>
      (n.name?, n.hasTestName, n.isTest)) = some (some "<Cache>", false, true) := by
    decide +kernel
  obtain ⟨v, hv, hvalues⟩ := Option.map_eq_some_iff.1 hv
  rw [getElem?_nodes_lower hv, Option.map_some] at hn
  simp only [Prod.mk.injEq, Option.some.injEq, List.isEmpty_iff] at hvalues hn
  obtain ⟨hname, htest, hmarked⟩ := hn
  refine ⟨v, List.mem_of_getElem? hv, hvalues.1, hname, htest, hvalues.2, fun hiff => ?_⟩
  obtain ⟨m, hm, -⟩ := hiff.1 hmarked
  rw [hvalues.2] at hm
  exact List.not_mem_nil hm

end Lowering

end CodeGauge

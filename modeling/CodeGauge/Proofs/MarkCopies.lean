import Mathlib.Algebra.Ring.Nat
import CodeGauge.Metric.Catalog
import CodeGauge.Proofs.Ownership

/-!
# What marks add to the counts

A mark that belongs to a declaration but stands outside it is lowered where it stands and a second
time under the declaration, with everything below it. `standing` lists the named nodes of a concrete
tree once each, `entered` the sites as lowering enters them, so a kind occurs in the lowered tree as
often as `entered` lists it (`map_kind_loweredAll`).

The second list has what the first has, and for every declaration the marks attached to it once more
(`countP_entered`). An attached mark is a child of the parent of its declaration
(`attached_subset_sites`), so nothing is entered that does not stand in the tree
(`entered_subset_standing`), and a kind is counted once exactly if no attached mark holds it.
-/

namespace CodeGauge

/-! ## Where attached marks stand -/

theorem Concrete.mem_sitesFrom_of_suffix {parent : Concrete} {before cs rest : List Concrete}
    {s : Site} {c : Concrete} (h : s ∈ sitesFrom parent before cs) (hc : c :: rest <:+ s.before) :
    ⟨c, some parent, rest⟩ ∈ sitesFrom parent before cs ∨ c :: rest <:+ before := by
  induction cs generalizing before with
  | nil => simp [sitesFrom] at h
  | cons d ds ih =>
    rw [sitesFrom, List.mem_cons] at h ⊢
    rcases h with rfl | h
    · exact .inr hc
    · rcases ih h with h | h
      · exact .inl (.inr h)
      · rcases List.suffix_cons_iff.1 h with h | h
        · simp only [List.cons.injEq] at h
          obtain ⟨rfl, rfl⟩ := h
          exact .inl (.inl rfl)
        · exact .inr h

namespace Language

theorem suffix_of_mem_attributeRun {parent : Option Concrete} {found : List Site} {a : Site} :
    ∀ {before : List Concrete}, a ∈ Rust.attributeRun parent found before →
      a ∈ found ∨ (a.parent = parent ∧ a.node.isNamed ∧ a.node :: a.before <:+ before)
  | [], h => by simpa [Rust.attributeRun] using h
  | c :: before, h => by
    have later {found' : List Site} (h : a ∈ Rust.attributeRun parent found' before) :
        a ∈ found' ∨ (a.parent = parent ∧ a.node.isNamed ∧ a.node :: a.before <:+ c :: before) :=
      (suffix_of_mem_attributeRun h).imp_right fun h =>
        ⟨h.1, h.2.1, h.2.2.trans (List.suffix_cons c before)⟩
    simp only [Rust.attributeRun] at h
    split at h
    · exact later h
    · rename_i hn
      split at h
      · rcases later h with h | h
        · rcases List.mem_cons.1 h with rfl | h
          · exact .inr ⟨rfl, by simpa using hn, List.suffix_rfl⟩
          · exact .inl h
        · exact .inr h
      · split at h
        · exact later h
        · exact .inl h

theorem attachedMarks_subset_sites (language : Language) {c : Concrete} {s : Site}
    (h : s ∈ c.sites) : language.attachedMarks s ⊆ c.sites := by
  intro a ha
  obtain ⟨hp, -, -⟩ := Concrete.mem_sites h
  cases language with
  | java | go => simp [attachedMarks] at ha
  | python =>
    simp only [attachedMarks, Python.attachedMarks, hp] at ha
    split at ha
    · exact (List.mem_filter.1 ha).1
    · simp at ha
  | rust =>
    rcases suffix_of_mem_attributeRun ha with ha | ⟨hpa, hn, hs⟩
    · simp at ha
    · have hfrom := Concrete.mem_sitesFrom_of_suffix (List.mem_filter.1 h).1 hs
      rw [or_iff_left (by simp)] at hfrom
      have hsite : a = ⟨a.node, some c, a.before⟩ := by rw [← hp, ← hpa]
      rw [hsite]
      exact List.mem_filter.2 ⟨hfrom, hn⟩

end Language

namespace Lowering

theorem sizes_namedSites_lt (c : Concrete) :
    Concrete.sizes (c.sites.map (·.node)) < c.size := by
  have hnodes (before cs : List Concrete) :
      Concrete.sizes (((Concrete.sitesFrom c before cs).filter (·.node.isNamed)).map (·.node)) ≤
        Concrete.sizes cs := by
    induction cs generalizing before with
    | nil => simp [Concrete.sitesFrom, Concrete.sizes]
    | cons d ds ih =>
      have := ih (d :: before)
      rw [Concrete.sitesFrom, List.filter_cons]
      split <;> simp only [List.map_cons, Concrete.sizes] <;> omega
  have := hnodes [] c.children
  rw [Concrete.size_eq]
  unfold Concrete.sites
  omega

/-- The given sites and the sites of all named nodes below them, in document order. -/
def standing : List Site → List Site
  | [] => []
  | s :: rest => s :: standing s.node.sites ++ standing rest
termination_by sites => Concrete.sizes (sites.map (·.node))
decreasing_by
  · have := sizes_namedSites_lt s.node
    simp only [List.map_cons, Concrete.sizes]
    omega
  · have := Concrete.size_eq s.node
    simp only [List.map_cons, Concrete.sizes]
    omega

variable (language : Language)

/-- The marks attached to a site: those of a declaration. -/
def attached (s : Site) : List Site :=
  if (language.classify s).isDeclaration then language.attachedMarks s else []

/-- The sites that lowering enters, in this order. -/
def entered : List Site → List Site
  | [] => []
  | s :: rest => s :: entered (childSites language s) ++ entered rest
termination_by sites => weights language sites
decreasing_by
  · rw [weights_cons, weight_eq]
    omega
  · have := weight_pos language s
    rw [weights_cons]
    omega

@[simp] theorem standing_nil : standing [] = [] := by rw [standing]

theorem standing_cons (s : Site) (rest : List Site) :
    standing (s :: rest) = s :: standing s.node.sites ++ standing rest := by rw [standing]

@[simp] theorem entered_nil : entered language [] = [] := by rw [entered]

theorem entered_cons (s : Site) (rest : List Site) :
    entered language (s :: rest) =
      s :: entered language (childSites language s) ++ entered language rest := by
  rw [entered]

theorem childSites_eq (s : Site) :
    childSites language s = attached language s ++ s.node.sites := rfl

theorem entered_append (ss ts : List Site) :
    entered language (ss ++ ts) = entered language ss ++ entered language ts := by
  induction ss with
  | nil => simp
  | cons s ss ih => simp [entered_cons, ih]

theorem map_kind_loweredAll (file : SourceFile) (sites : List Site) :
    ∀ (scope : Option String) (taken : TakenNames),
      (Node.preorders none (loweredAll file scope taken sites).1).map (·.kind) =
        (entered file.language sites).map file.language.classify := by
  induction sites using sites_induction file.language with
  | nil => simp [Node.preorders]
  | cons s rest ihchildren ihrest =>
    intro scope taken
    rw [loweredAll_cons, lowered_eq, entered_cons]
    simp only [Node.preorders, Node.preorder, reduceCtorEq, if_false, List.cons_append,
      List.map_cons, List.map_append, ihchildren, ihrest]
    rfl

/-! ## Both lists compared -/

/-- What is entered is what stands there, and the marks of each declaration once more. -/
theorem countP_entered (p : Site → Bool) (sites : List Site) :
    (entered language sites).countP p = (standing sites).countP p +
      ((standing sites).map fun s => (entered language (attached language s)).countP p).sum := by
  fun_induction standing sites with
  | case1 => simp
  | case2 s rest ihbelow ihrest =>
    rw [entered_cons, childSites_eq, entered_append]
    simp only [List.cons_append, List.countP_cons, List.countP_append, List.map_cons,
      List.map_append, List.sum_cons, List.sum_append, ihbelow, ihrest]
    omega

theorem standing_append (ss ts : List Site) :
    standing (ss ++ ts) = standing ss ++ standing ts := by
  induction ss with
  | nil => simp
  | cons s ss ih => simp [standing_cons, ih]

theorem standing_subset_of_mem {s : Site} {all : List Site} (h : s ∈ all) :
    s :: standing s.node.sites ⊆ standing all := by
  obtain ⟨before, after, rfl⟩ := List.append_of_mem h
  intro x hx
  rw [standing_append, standing_cons]
  exact List.mem_append_right _ (List.mem_append_left _ hx)

theorem standing_subset_entered (sites : List Site) :
    standing sites ⊆ entered language sites := by
  fun_induction standing sites with
  | case1 => simp
  | case2 s rest ihbelow ihrest =>
    intro x hx
    rw [entered_cons, childSites_eq, entered_append]
    simp only [List.cons_append, List.mem_cons, List.mem_append] at hx ⊢
    rcases hx with hx | hx | hx
    · exact .inl hx
    · exact .inr (.inl (.inr (ihbelow hx)))
    · exact .inr (.inr (ihrest hx))

/-- Whether sites are together with the marks attached to them. -/
def Closed (sites : List Site) : Prop := ∀ s ∈ sites, attached language s ⊆ sites

variable {language}

theorem closed_sites (c : Concrete) : Closed language c.sites := by
  intro s hs a ha
  rw [attached] at ha
  split at ha
  · exact Language.attachedMarks_subset_sites language hs ha
  · simp at ha

theorem attached_of_mem_attached {s a : Site} (h : a ∈ attached language s) :
    attached language a = [] := by
  rw [attached] at h
  split at h
  · have hk := (Language.classify_attachedMarks h).1
    simp [attached, hk, Kind.isDeclaration]
  · simp at h

theorem closed_attached (s : Site) : Closed language (attached language s) := by
  intro a ha
  simp [attached_of_mem_attached ha]

theorem Closed.append {ss ts : List Site} (h : Closed language ss) (k : Closed language ts) :
    Closed language (ss ++ ts) := by
  intro s hs a ha
  rcases List.mem_append.1 hs with hs | hs
  · exact List.mem_append_left _ (h s hs ha)
  · exact List.mem_append_right _ (k s hs ha)

-- the sites on the way are some of a closed list: with a site of it come its marks, which are in
-- the list, and its children, which join it
theorem entered_subset_of_closed (sites : List Site) :
    ∀ all : List Site, sites ⊆ all → Closed language all →
      entered language sites ⊆ standing all := by
  induction sites using sites_induction language with
  | nil => simp
  | cons s rest ihchildren ihrest =>
    intro all hsub hclosed x hx
    have hs : s ∈ all := hsub List.mem_cons_self
    rw [entered_cons, List.cons_append, List.mem_cons, List.mem_append] at hx
    rcases hx with rfl | hx | hx
    · exact standing_subset_of_mem hs List.mem_cons_self
    · have hchildren : childSites language s ⊆ all ++ s.node.sites :=
        List.append_subset.2 ⟨fun a ha => List.mem_append_left _ (hclosed s hs ha), by simp⟩
      have hx := ihchildren _ hchildren (hclosed.append (closed_sites s.node)) hx
      rw [standing_append, List.mem_append] at hx
      rcases hx with hx | hx
      · exact hx
      · exact standing_subset_of_mem hs (List.mem_cons_of_mem _ hx)
    · exact ihrest all (fun y hy => hsub (List.mem_cons_of_mem _ hy)) hclosed hx

theorem entered_subset_standing {sites : List Site} (h : Closed language sites) :
    entered language sites ⊆ standing sites :=
  entered_subset_of_closed sites sites (List.Subset.refl _) h

theorem countP_entered_attached_eq_zero {p : Site → Bool} {s : Site} :
    (entered language (attached language s)).countP p = 0 ↔
      ∀ x ∈ standing (attached language s), ¬p x := by
  rw [List.countP_eq_zero]
  exact ⟨fun h x hx => h x (standing_subset_entered language _ hx),
    fun h x hx => h x (entered_subset_standing (closed_attached s) hx)⟩

end Lowering

open Lowering

/-- A kind occurs in a lowered tree as often as in the named nodes of the concrete tree, and for
each declaration as often again as in what is lowered of the marks attached to it. So it is counted
once for each node of the source exactly if no mark attached to a declaration is or holds one. -/
theorem countP_kind_lower (language : Language) (bytes : ByteArray) (path : String)
    (root : Concrete) (kind : Kind) :
    let nodes := (lower language bytes path root).nodes
    let sites := standing [.root root]
    nodes.countP (·.kind = kind) = sites.countP (language.classify · = kind) +
        (sites.map fun d =>
          (entered language (attached language d)).countP (language.classify · = kind)).sum ∧
    (nodes.countP (·.kind = kind) = sites.countP (language.classify · = kind) ↔
      ∀ d ∈ sites, (language.classify d).isDeclaration →
        ∀ x ∈ standing (language.attachedMarks d), language.classify x ≠ kind) := by
  intro nodes sites
  have hkinds : nodes.map (·.kind) = (entered language [.root root]).map language.classify := by
    have h := map_kind_loweredAll (.ofTree language bytes path root) [.root root] none ∅
    rw [← nodes_lower] at h
    exact h
  have hcount : nodes.countP (·.kind = kind) =
      (entered language [.root root]).countP (language.classify · = kind) := by
    have h := congrArg (List.countP (· = kind)) hkinds
    rw [List.countP_map, List.countP_map] at h
    exact h
  have hsum := hcount.trans (countP_entered language (language.classify · = kind) [.root root])
  refine ⟨hsum, ?_⟩
  rw [hsum, Nat.add_eq_left, List.sum_eq_zero_iff_forall_eq_nat]
  simp only [List.mem_map, forall_exists_index, and_imp, forall_apply_eq_imp_iff₂,
    countP_entered_attached_eq_zero, decide_eq_true_eq]
  refine forall₂_congr fun d _ => ?_
  rw [attached]
  split <;> simp [*]

/-! ## A decorated method -/

namespace Lowering

def decoratedSource : ByteArray :=
  "class C:\n    @mark(1 if x else 2)\n    def m(self): pass\n".toUTF8

/-- A class with a method whose decorator is given the value of a condition. -/
def decoratedTree : Concrete :=
  .mk ⟨"module", true, none, 0, 56, 0, 3⟩
    [.mk ⟨"class_definition", true, none, 0, 55, 0, 2⟩
      [.mk (row "identifier" (some "name") 6 7 0) [],
       .mk ⟨"block", true, some "body", 13, 55, 1, 2⟩
        [.mk ⟨"decorated_definition", true, none, 13, 55, 1, 2⟩
          [.mk (row "decorator" none 13 33 1)
            [.mk (row "call" none 14 33 1)
              [.mk (row "identifier" (some "function") 14 18 1) [],
               .mk (row "argument_list" (some "arguments") 18 33 1)
                [.mk (row "conditional_expression" none 19 32 1)
                  [.mk (row "integer" none 19 20 1) [],
                   .mk (row "identifier" none 24 25 1) [],
                   .mk (row "integer" none 31 32 1) []]]]],
           .mk (row "function_definition" (some "definition") 38 55 2)
            [.mk (row "identifier" (some "name") 42 43 2) [],
             .mk (row "parameters" (some "parameters") 43 49 2)
              [.mk (row "identifier" none 44 48 2) []],
             .mk (row "block" (some "body") 51 55 2)
              [.mk (row "pass_statement" none 51 55 2) []]]]]]]

/-- The condition is one node of the source and two of the tree, and both are below the class. -/
theorem branch_counted_twice :
    let tree := lower .python decoratedSource "pkg/c.py" decoratedTree
    (standing [.root decoratedTree]).countP (Language.python.classify · = .branch) = 1 ∧
    tree.nodes.countP (·.kind = .branch) = 2 ∧
    (tree.descendantsOfKind .typeDeclaration).map (fun n =>
      (n.name?, n.statementCount)) = [(some "C", 4)] := by
  decide +kernel

end Lowering

end CodeGauge

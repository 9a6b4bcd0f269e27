import CodeGauge.Proofs.MarkCopies
import CodeGauge.Proofs.OwnMarks

/-!
# Attributes and the items they belong to

Attributes stand before the item they belong to. `Site.at?` finds the nodes of a concrete tree by
place, with named children counted: tokens are no siblings. `Attached` says of two places that an
attribute stands at the one and belongs to the node at the other: they are siblings, and attributes
and comments are all that stands between.

The walk back over the siblings finds exactly these attributes, first to last
(`exists_attributeRun`, `attachedMarks_at`). A declaration ends the walk that starts at a later
one, so no attribute belongs to two (`attached_unique`). Lowering makes the first children of a
declaration of its attributes (`attributes_of_declaration`).
-/

namespace CodeGauge

/-! ## Places in a concrete tree -/

/-- The site at a place: the numbers of the named children to go to, step by step. -/
def Site.at? : Site → Place → Option Site
  | s, [] => some s
  | s, i :: p => s.node.sites[i]?.bind (·.at? p)

namespace Site

theorem at?_append (s : Site) (p q : Place) : s.at? (p ++ q) = (s.at? p).bind (·.at? q) := by
  induction p generalizing s with
  | nil => rfl
  | cons i p ih =>
    rw [List.cons_append, at?, at?]
    rcases s.node.sites[i]? with _ | t
    · rfl
    · exact ih t

theorem at?_child {s t : Site} {p : Place} (h : s.at? p = some t) (i : Nat) :
    s.at? (p ++ [i]) = t.node.sites[i]? := by
  rw [at?_append, h]
  simp [at?]

end Site

namespace Concrete

/-- The siblings before a site are the sites before it in the list of named children. -/
theorem filter_sitesFrom_before (c : Concrete) : ∀ (cs before : List Concrete) {i : Nat} {s : Site},
    ((sitesFrom c before cs).filter (·.node.isNamed))[i]? = some s →
      ∃ ds, s.before = ds.reverse ++ before ∧
        (sitesFrom c before ds).filter (·.node.isNamed) =
          ((sitesFrom c before cs).filter (·.node.isNamed)).take i
  | [], before, i, s, h => by simp [sitesFrom] at h
  | d :: cs, before, i, s, h => by
    rw [sitesFrom, List.filter_cons] at h ⊢
    by_cases hn : d.isNamed
    · rw [if_pos hn] at h ⊢
      rcases i with _ | i
      · simp only [List.getElem?_cons_zero, Option.some.injEq] at h
        subst h
        exact ⟨[], rfl, by simp [sitesFrom]⟩
      · simp only [List.getElem?_cons_succ] at h
        obtain ⟨ds, hbefore, hsites⟩ := filter_sitesFrom_before c cs (d :: before) h
        refine ⟨d :: ds, by simp [hbefore], ?_⟩
        rw [sitesFrom, List.filter_cons, if_pos hn, hsites, List.take_succ_cons]
    · rw [if_neg hn] at h ⊢
      obtain ⟨ds, hbefore, hsites⟩ := filter_sitesFrom_before c cs (d :: before) h
      refine ⟨d :: ds, by simp [hbefore], ?_⟩
      rw [sitesFrom, List.filter_cons, if_neg hn, hsites]

theorem sitesFrom_append (c : Concrete) : ∀ (cs ds before : List Concrete),
    sitesFrom c before (cs ++ ds) =
      sitesFrom c before cs ++ sitesFrom c (cs.reverse ++ before) ds
  | [], ds, before => rfl
  | d :: cs, ds, before => by
    rw [List.cons_append, sitesFrom, sitesFrom, sitesFrom_append c cs ds (d :: before)]
    simp

/-- The sites of the named children up to a place among the children, these given nearest first. -/
def sitesBefore (c : Concrete) (before : List Concrete) : List Site :=
  (sitesFrom c [] before.reverse).filter (·.node.isNamed)

theorem sitesBefore_cons (c d : Concrete) (before : List Concrete) :
    c.sitesBefore (d :: before) =
      c.sitesBefore before ++ if d.isNamed then [⟨d, some c, before⟩] else [] := by
  rw [sitesBefore, List.reverse_cons, sitesFrom_append, List.filter_append, List.reverse_reverse,
    List.append_nil, sitesFrom, sitesFrom, List.filter_cons, List.filter_nil]
  rfl

/-- The named siblings before a site are the sites before it. -/
theorem sitesBefore_of_getElem? {c : Concrete} {i : Nat} {s : Site} (h : c.sites[i]? = some s) :
    c.sitesBefore s.before = c.sites.take i := by
  obtain ⟨ds, hbefore, hsites⟩ := filter_sitesFrom_before c c.children [] h
  rw [sitesBefore, hbefore, List.append_nil, List.reverse_reverse, hsites]
  rfl

end Concrete

/-! ## Runs of attributes -/

namespace Rust

/-- Whether number `j` of some siblings is an attribute that only attributes and comments follow. -/
def LastAttribute (siblings : List Site) (j : Nat) : Prop :=
  siblings[j]?.any (·.kind = "attribute_item") ∧
    ∀ k, j < k → k < siblings.length → siblings[k]?.any (inRun ·.node)

theorem LastAttribute.lt {siblings : List Site} {j : Nat} (h : LastAttribute siblings j) :
    j < siblings.length := by
  by_contra hlt
  have hattribute := h.1
  rw [List.getElem?_eq_none (by omega)] at hattribute
  cases hattribute

/-- One more sibling may be such an attribute, and leaves those before it what they are only if it
is an attribute or a comment. -/
theorem lastAttribute_concat {siblings : List Site} {s : Site} {j : Nat} :
    LastAttribute (siblings ++ [s]) j ↔
      j = siblings.length ∧ s.kind = "attribute_item" ∨
        inRun s.node ∧ LastAttribute siblings j := by
  constructor
  · intro h
    have hlt := h.lt
    obtain ⟨hattribute, hafter⟩ := h
    rw [List.length_append, List.length_singleton] at hlt hafter
    rcases Nat.lt_succ_iff_lt_or_eq.1 hlt with hj | rfl
    · have hs := hafter siblings.length hj (Nat.lt_succ_self _)
      rw [List.getElem?_append_left hj] at hattribute
      refine .inr ⟨by simpa using hs, hattribute, fun k hjk hk => ?_⟩
      have hk' := hafter k hjk (by omega)
      rwa [List.getElem?_append_left hk] at hk'
    · exact .inl ⟨rfl, by simpa using hattribute⟩
  · rintro (⟨rfl, hs⟩ | ⟨hs, h⟩)
    · refine ⟨by simpa using hs, fun k hjk hk => ?_⟩
      rw [List.length_append, List.length_singleton] at hk
      omega
    · have hj := h.lt
      obtain ⟨hattribute, hafter⟩ := h
      refine ⟨by rwa [List.getElem?_append_left hj], fun k hjk hk => ?_⟩
      rw [List.length_append, List.length_singleton] at hk
      rcases Nat.lt_succ_iff_lt_or_eq.1 hk with hk | rfl
      · rw [List.getElem?_append_left hk]
        exact hafter k hjk hk
      · simpa using hs

/-- The walk back over some siblings finds the attributes that only attributes and comments follow,
first to last. -/
theorem exists_attributeRun (c : Concrete) : ∀ before : List Concrete,
    ∃ js : List Nat, js.Pairwise (· < ·) ∧
      (∀ j, j ∈ js ↔ LastAttribute (c.sitesBefore before) j) ∧
      ∀ found : List Site, (attributeRun (some c) found before).map some =
        js.map ((c.sitesBefore before)[·]?) ++ found.map some
  | [] => ⟨[], .nil, fun j => by simp [LastAttribute, Concrete.sitesBefore, Concrete.sitesFrom],
      fun found => by simp [attributeRun]⟩
  | d :: before => by
    obtain ⟨js, hsorted, hmem, hrun⟩ := exists_attributeRun c before
    rw [Concrete.sitesBefore_cons]
    by_cases hn : d.isNamed
    swap
    -- a token is no sibling
    · refine ⟨js, hsorted, by simpa [hn] using hmem, fun found => ?_⟩
      rw [attributeRun, if_pos (by simp [hn]), hrun]
      simp [hn]
    rw [if_pos hn]
    have hlt : ∀ j ∈ js, j < (c.sitesBefore before).length := fun j hj => ((hmem j).1 hj).lt
    have hearlier : js.map ((c.sitesBefore before ++ [⟨d, some c, before⟩])[·]?) =
        js.map ((c.sitesBefore before)[·]?) :=
      List.map_congr_left fun j hj => List.getElem?_append_left (hlt j hj)
    by_cases hattribute : d.kind = "attribute_item"
    · refine ⟨js ++ [(c.sitesBefore before).length], ?_, fun j => ?_, fun found => ?_⟩
      · exact List.pairwise_append.2 ⟨hsorted, List.pairwise_singleton _ _, by simpa using hlt⟩
      · rw [lastAttribute_concat, List.mem_append, hmem]
        simp [Site.kind, inRun, hattribute, or_comm]
      · rw [attributeRun, if_neg (by simp [hn]), if_pos hattribute, hrun, List.map_append, hearlier]
        simp
    by_cases hcomment : d.kind = "line_comment" ∨ d.kind = "block_comment"
    · refine ⟨js, hsorted, fun j => ?_, fun found => ?_⟩
      · rw [lastAttribute_concat, hmem]
        simp [Site.kind, inRun, hattribute, hcomment]
      · rw [attributeRun, if_neg (by simp [hn]), if_neg hattribute, if_pos hcomment, hrun, hearlier]
    · refine ⟨[], .nil, fun j => ?_, fun found => ?_⟩
      · rw [lastAttribute_concat]
        simp [Site.kind, inRun, hattribute, hcomment]
      · rw [attributeRun, if_neg (by simp [hn]), if_neg hattribute, if_neg hcomment]
        simp

/-- Whether an attribute stands at one place and belongs to the node at another: the attribute is an
earlier sibling, and attributes and comments are all that stands between. -/
def Attached (root : Site) (q p : Place) : Prop :=
  ∃ parent j i, q = parent ++ [j] ∧ p = parent ++ [i] ∧ j < i ∧
    (root.at? q).any (·.kind = "attribute_item") ∧
    ∀ k, j < k → k < i → (root.at? (parent ++ [k])).any (inRun ·.node)

theorem attached_concat {root s : Site} {parent : Place} {i : Nat} {q : Place}
    (h : root.at? parent = some s) (hi : i < s.node.sites.length) :
    Attached root q (parent ++ [i]) ↔
      ∃ j, LastAttribute (s.node.sites.take i) j ∧ parent ++ [j] = q := by
  have hlength : (s.node.sites.take i).length = i := by
    rw [List.length_take]
    omega
  constructor
  · rintro ⟨parent', j, i', rfl, hp, hj, hattribute, hbetween⟩
    obtain ⟨rfl, hi'⟩ := List.append_inj' hp rfl
    obtain rfl := List.singleton_inj.1 hi'
    rw [Site.at?_child h] at hattribute
    refine ⟨j, ⟨by rwa [List.getElem?_take_of_lt hj], fun k hjk hk => ?_⟩, rfl⟩
    rw [hlength] at hk
    have hk' := hbetween k hjk hk
    rwa [Site.at?_child h, ← List.getElem?_take_of_lt hk] at hk'
  · rintro ⟨j, hlast, rfl⟩
    have hj := hlast.lt
    obtain ⟨hattribute, hafter⟩ := hlast
    rw [hlength] at hj hafter
    rw [List.getElem?_take_of_lt hj] at hattribute
    refine ⟨parent, j, i, rfl, rfl, hj, by rwa [Site.at?_child h], fun k hjk hk => ?_⟩
    have hk' := hafter k hjk hk
    rwa [List.getElem?_take_of_lt hk, ← Site.at?_child h] at hk'

/-- The marks of a site are the attributes that belong to it, first to last. -/
theorem attachedMarks_at {root : Concrete} {p : Place} {s : Site}
    (h : (Site.root root).at? p = some s) :
    ∃ places : List Place, places.Pairwise (· < ·) ∧
      (∀ q, q ∈ places ↔ Attached (.root root) q p) ∧
      (attachedMarks s).map some = places.map (Site.root root).at? := by
  rcases List.eq_nil_or_concat p with rfl | ⟨parent, i, rfl⟩
  · obtain rfl : Site.root root = s := Option.some_inj.1 h
    exact ⟨[], .nil, fun q => by simp [Attached], rfl⟩
  rw [List.concat_eq_append] at h ⊢
  obtain ⟨t, ht, hs⟩ : ∃ t, (Site.root root).at? parent = some t ∧ t.node.sites[i]? = some s := by
    rw [Site.at?_append] at h
    obtain ⟨t, ht, hs⟩ := Option.bind_eq_some_iff.1 h
    exact ⟨t, ht, by rwa [← Site.at?_child ht i, Site.at?_append, ht]⟩
  obtain ⟨hi, -⟩ := List.getElem?_eq_some_iff.1 hs
  obtain ⟨js, hsorted, hmem, hrun⟩ := exists_attributeRun t.node s.before
  rw [Concrete.sitesBefore_of_getElem? hs] at hmem hrun
  refine ⟨js.map (parent ++ [·]), ?_, fun q => ?_, ?_⟩
  · rw [List.pairwise_map]
    exact hsorted.imp fun hlt => List.append_left_lt (List.cons_lt_cons_iff.2 (.inl hlt))
  · simp only [attached_concat ht hi, List.mem_map, hmem]
  · obtain ⟨hparent, -, -⟩ := Concrete.mem_sites (List.mem_of_getElem? hs)
    rw [attachedMarks, hparent, hrun, List.map_nil, List.append_nil, List.map_map]
    refine List.map_congr_left fun j hj => ?_
    have hlt := ((hmem j).1 hj).lt
    rw [List.length_take] at hlt
    rw [Function.comp_apply, Site.at?_child ht, List.getElem?_take_of_lt (by omega)]

theorem not_inRun_of_declaration {s : Site} (h : (classify s).isDeclaration) :
    inRun s.node = false := by
  rw [Bool.eq_false_iff]
  intro hrun
  have hk : s.kind = "attribute_item" ∨ s.kind = "line_comment" ∨ s.kind = "block_comment" := by
    simp only [inRun, List.contains_cons, List.contains_nil, Bool.or_eq_true, beq_iff_eq,
      Bool.or_false] at hrun
    exact hrun
  rcases hk with hk | hk | hk <;> simp [classify, hk, Kind.isDeclaration] at h

/-- No attribute belongs to two declarations: the first would end the walk from the second. -/
theorem attached_unique {root s t : Site} {p q r : Place} (hp : root.at? p = some s)
    (hr : root.at? r = some t) (hs : (classify s).isDeclaration) (ht : (classify t).isDeclaration)
    (hqp : Attached root q p) (hqr : Attached root q r) : p = r := by
  obtain ⟨parent, j, i, rfl, rfl, hji, -, hbeforei⟩ := hqp
  obtain ⟨parent', j', k, hq, rfl, hjk, -, hbeforek⟩ := hqr
  obtain ⟨rfl, hj⟩ := List.append_inj' hq rfl
  obtain rfl := List.singleton_inj.1 hj
  rcases lt_trichotomy i k with hlt | rfl | hlt
  · have hrun := hbeforek i hji hlt
    rw [hp, Option.any_some, not_inRun_of_declaration hs] at hrun
    cases hrun
  · rfl
  · have hrun := hbeforei k hjk hlt
    rw [hr, Option.any_some, not_inRun_of_declaration ht] at hrun
    cases hrun

end Rust

/-! ## Lowered attributes -/

namespace Lowering

theorem exists_at?_of_mem_standing {sites : List Site} {s : Site} (h : s ∈ standing sites) :
    ∃ t ∈ sites, ∃ p, t.at? p = some s := by
  fun_induction standing sites with
  | case1 => cases h
  | case2 t rest ihbelow ihrest =>
    rcases List.mem_append.1 h with h | h
    · rcases List.mem_cons.1 h with rfl | h
      · exact ⟨s, List.mem_cons_self, [], rfl⟩
      · obtain ⟨u, hu, p, hp⟩ := ihbelow h
        obtain ⟨i, hi⟩ := List.mem_iff_getElem?.1 hu
        exact ⟨t, List.mem_cons_self, i :: p, by rw [Site.at?, hi, Option.bind_some, hp]⟩
    · obtain ⟨u, hu, hp⟩ := ihrest h
      exact ⟨u, List.mem_cons_of_mem _ hu, hp⟩

theorem mem_standing_of_at? {s t : Site} {p : Place} (h : t.at? p = some s)
    {sites : List Site} (ht : t ∈ sites) : s ∈ standing sites := by
  induction p generalizing t sites with
  | nil =>
    obtain rfl : t = s := Option.some_inj.1 h
    exact standing_subset_of_mem ht List.mem_cons_self
  | cons i p ih =>
    obtain ⟨u, hu, hp⟩ := Option.bind_eq_some_iff.1 h
    exact standing_subset_of_mem ht
      (List.mem_cons_of_mem _ (ih hp (List.mem_of_getElem? hu)))

variable (file : SourceFile)

theorem map_site_visitsAll (sites : List Site) : ∀ a : Around,
    (visitsAll file a sites).map (·.site) = entered file.language sites := by
  induction sites using sites_induction file.language with
  | nil => simp
  | cons s rest ihchildren ihrest =>
    intro a
    rw [visitsAll_cons, entered_cons]
    simp [ihchildren, ihrest]

/-- Lowering visits a site exactly if it stands somewhere in the tree. -/
theorem exists_visit_iff {root : Concrete} {s : Site}
    (hclosed : Closed file.language [.root root]) :
    (∃ v ∈ visits file root, v.site = s) ↔ ∃ p, (Site.root root).at? p = some s := by
  have hsites : (∃ v ∈ visits file root, v.site = s) ↔ s ∈ entered file.language [.root root] := by
    rw [← map_site_visitsAll file [.root root] ⟨none, ∅, none⟩, List.mem_map]
    rfl
  rw [hsites]
  constructor
  · intro h
    obtain ⟨t, ht, p, hp⟩ := exists_at?_of_mem_standing (entered_subset_standing hclosed h)
    obtain rfl := List.mem_singleton.1 ht
    exact ⟨p, hp⟩
  · rintro ⟨p, hp⟩
    exact standing_subset_entered _ _ (mem_standing_of_at? hp (List.mem_singleton.2 rfl))

theorem closed_root (root : Concrete) : Closed .rust [.root root] := by
  intro s hs
  obtain rfl := List.mem_singleton.1 hs
  rw [attached]
  split <;> exact List.nil_subset _

/-- The first children of a declaration are made of the marks attached to it. -/
theorem Visit.children_of_declaration {file : SourceFile} (v : Visit)
    (h : (v.kind file).isDeclaration) :
    ∃ marks others : List Visit,
      marks.map (·.site) = file.language.attachedMarks v.site ∧
      others.map (·.site) = v.site.node.sites ∧
      (v.node file).children = (marks ++ others).map (·.node file) := by
  have hsites := map_site_visitsTo file (childSites file.language v.site) (v.inside file)
  rw [childSites_of_declaration h] at hsites
  obtain ⟨marks, others, hvisits, hmarks, hothers⟩ := List.map_eq_append_iff.1 hsites
  refine ⟨marks, others, hmarks, hothers, ?_⟩
  rw [← hvisits, map_node_visitsTo, children_node, childSites_of_declaration h]

/-- For every declaration of a Rust source, the attached attributes are those that only attributes
and comments part from it, in the order of the source. They become the first children of the
declaration, in that order, and none is attached to two declarations. -/
theorem attributes_of_declaration (bytes : ByteArray) (path : String) (root : Concrete) :
    let file := SourceFile.ofTree .rust bytes path root
    let top := Site.root root
    (visits file root).map (·.node file) = (lower .rust bytes path root).nodes ∧
    (∀ s, (∃ v ∈ visits file root, v.site = s) ↔ ∃ p, top.at? p = some s) ∧
    (∀ v ∈ visits file root, (v.kind file).isDeclaration → ∀ p, top.at? p = some v.site →
      ∃ (places : List Place) (marks others : List Visit), places.Pairwise (· < ·) ∧
        (∀ q, q ∈ places ↔ Rust.Attached top q p) ∧
        (Rust.attachedMarks v.site).map some = places.map top.at? ∧
        marks.map (·.site) = Rust.attachedMarks v.site ∧
        others.map (·.site) = v.site.node.sites ∧
        (v.node file).children = (marks ++ others).map (·.node file) ∧
        ∀ m ∈ marks, (m.node file).kind = .mark ∧ (m.node file).rawKind = "attribute_item") ∧
    ∀ v ∈ visits file root, ∀ w ∈ visits file root,
      (v.kind file).isDeclaration → (w.kind file).isDeclaration →
      ∀ p r, top.at? p = some v.site → top.at? r = some w.site →
        ∀ q, Rust.Attached top q p → Rust.Attached top q r → p = r := by
  intro file top
  refine ⟨map_node_visits (nodesOf_root .rust bytes path root),
    fun s => exists_visit_iff file (closed_root root), fun v _ h p hp => ?_,
    fun v _ w _ hv hw p r hp hr q hqp hqr => Rust.attached_unique hp hr hv hw hqp hqr⟩
  obtain ⟨places, hsorted, hmem, hplaces⟩ := Rust.attachedMarks_at hp
  obtain ⟨marks, others, hmarks, hothers, hchildren⟩ := v.children_of_declaration h
  refine ⟨places, marks, others, hsorted, hmem, hplaces, hmarks, hothers, hchildren,
    fun m hm => ?_⟩
  have hattached : m.site ∈ Rust.attachedMarks v.site := by
    have hmarks : marks.map (·.site) = Rust.attachedMarks v.site := hmarks
    rw [← hmarks]
    exact List.mem_map_of_mem hm
  have hattribute : m.site.kind = "attribute_item" :=
    ((Language.mem_attributeRun hattached).resolve_left List.not_mem_nil).1
  refine ⟨?_, ?_⟩
  · rw [m.kind_node]
    show Rust.classify m.site = .mark
    simp [Rust.classify, hattribute]
  · rw [m.node_eq]
    exact hattribute

/-! ## A function with two attributes -/

def attributedSource : ByteArray :=
  "#[cfg(test)]\n// found\n#[test]\nfn hits() \x7b\x7d\nfn misses() \x7b\x7d\n".toUTF8

/-- Two functions after two attributes and a comment. -/
def attributedTree : Concrete :=
  .mk ⟨"source_file", true, none, 0, 58, 0, 5⟩
    [.mk (row "attribute_item" none 0 12 0)
      [.mk (row "attribute" none 2 11 0)
        [.mk (row "identifier" none 2 5 0) [],
         .mk (row "token_tree" (some "arguments") 5 11 0)
          [.mk (row "identifier" none 6 10 0) []]]],
     .mk (row "line_comment" none 13 21 1) [],
     .mk (row "attribute_item" none 22 29 2)
      [.mk (row "attribute" none 24 28 2) [.mk (row "identifier" none 24 28 2) []]],
     .mk (row "function_item" none 30 42 3)
      [.mk (row "identifier" (some "name") 33 37 3) [],
       .mk (row "parameters" (some "parameters") 37 39 3) [],
       .mk (row "block" (some "body") 40 42 3) []],
     .mk (row "function_item" none 43 57 4)
      [.mk (row "identifier" (some "name") 46 52 4) [],
       .mk (row "parameters" (some "parameters") 52 54 4) [],
       .mk (row "block" (some "body") 55 57 4) []]]

/-- Both attributes belong to the first function, and the second has none of them. -/
theorem function_with_two_attributes :
    let file := SourceFile.ofTree .rust attributedSource "src/cache.rs" attributedTree
    let top := Site.root attributedTree
    ∃ v ∈ visits file attributedTree, (v.kind file).isDeclaration ∧
      top.at? [3] = some v.site ∧
      (∃ (places : List Place) (marks others : List Visit), [0] ∈ places ∧ [2] ∈ places ∧
        (marks.map (·.site)).map some = places.map top.at? ∧
        (v.node file).children = (marks ++ others).map (·.node file)) ∧
      ¬Rust.Attached top [0] [4] ∧ ¬Rust.Attached top [2] [4] := by
  intro file top
  obtain ⟨-, hvisits, hchildren, hunique⟩ :=
    attributes_of_declaration attributedSource "src/cache.rs" attributedTree
  have hfunction (p : Place)
      (h : (top.at? p).any fun s => (Language.rust.classify s).isDeclaration) :
      ∃ v ∈ visits file attributedTree, (v.kind file).isDeclaration ∧ top.at? p = some v.site := by
    obtain ⟨s, hs, hdeclaration⟩ := (Option.any_eq_true _ _).1 h
    obtain ⟨v, hv, rfl⟩ := (hvisits s).2 ⟨p, hs⟩
    exact ⟨v, hv, hdeclaration, hs⟩
  obtain ⟨v, hv, hd, hp⟩ := hfunction [3] (by decide +kernel)
  obtain ⟨w, hw, hd', hr⟩ := hfunction [4] (by decide +kernel)
  have hfirst : Rust.Attached top [0] [3] := by
    refine ⟨[], 0, 3, rfl, rfl, by decide, by decide +kernel, fun k _ _ => ?_⟩
    obtain rfl | rfl : k = 1 ∨ k = 2 := by omega
    all_goals decide +kernel
  have hsecond : Rust.Attached top [2] [3] :=
    ⟨[], 2, 3, rfl, rfl, by decide, by decide +kernel, fun k _ _ => by omega⟩
  refine ⟨v, hv, hd, hp, ?_, fun h => ?_, fun h => ?_⟩
  · obtain ⟨places, marks, others, -, hmem, hplaces, hmarks, -, hnodes, -⟩ :=
      hchildren v hv hd [3] hp
    exact ⟨places, marks, others, (hmem _).2 hfirst, (hmem _).2 hsecond, hmarks ▸ hplaces, hnodes⟩
  · cases hunique v hv w hw hd hd' _ _ hp hr _ hfirst h
  · cases hunique v hv w hw hd hd' _ _ hp hr _ hsecond h

end Lowering

end CodeGauge

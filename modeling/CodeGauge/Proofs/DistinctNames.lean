import CodeGauge.Proofs.FreshName
import CodeGauge.Proofs.Lists
import CodeGauge.Proofs.Lowered
import CodeGauge.Proofs.Preorder

/-!
# Every declaration has a name of its own

Lowering only ever adds to the taken names, and a name it gives out is a new one. `Handed` is what
this comes to over any stretch of the walk: the names in the nodes made so far are distinct, none of
them was taken before the stretch and all of them are after it. Stretches follow one another
(`Handed.append`), so the names of a whole tree are distinct (`handed_loweredAll`). Scopes that
declare nothing take a name that stands in no node.

A node is given a qualified name exactly if it is a declaration (`qualified_isSome`).
-/

namespace CodeGauge

namespace Node

/-- The qualified names in several trees in document order. -/
def qualifiedNames (ns : List Node) : List QualifiedName :=
  (preorders none ns).filterMap (·.head.qualified)

@[simp] theorem qualifiedNames_nil : qualifiedNames [] = [] := rfl

theorem qualifiedNames_cons (head : Header) (children ns : List Node) :
    qualifiedNames (mk head children :: ns) =
      head.qualified.toList ++ qualifiedNames children ++ qualifiedNames ns := by
  simp only [qualifiedNames, preorders, preorder, reduceCtorEq, if_false, List.cons_append,
    List.filterMap_cons, List.filterMap_append, Node.head]
  cases head.qualified <;> simp

end Node

namespace Lowering

/-- A stretch of lowering that puts `names` into nodes, between what was taken before it and what
is taken after it. -/
structure Handed (before : TakenNames) (names : List QualifiedName) (after : TakenNames) :
    Prop where
  kept : ∀ q ∈ before, q ∈ after
  taken : ∀ q ∈ names, q ∈ after
  new : ∀ q ∈ names, q ∉ before
  distinct : names.Nodup

namespace Handed

theorem nothing (taken : TakenNames) : Handed taken [] taken where
  kept _ h := h
  taken := by simp
  new := by simp
  distinct := List.nodup_nil

/-- What the second stretch gives out was not given out by the first, which took it. -/
theorem append {a b c : TakenNames} {xs ys : List QualifiedName} (h : Handed a xs b)
    (k : Handed b ys c) : Handed a (xs ++ ys) c where
  kept q hq := k.kept q (h.kept q hq)
  taken q hq := by
    rcases List.mem_append.1 hq with hq | hq
    · exact k.kept q (h.taken q hq)
    · exact k.taken q hq
  new q hq := by
    rcases List.mem_append.1 hq with hq | hq
    · exact h.new q hq
    · exact fun ha => k.new q hq (h.kept q ha)
  distinct := by
    refine List.nodup_append.2 ⟨h.distinct, k.distinct, fun x hx y hy hxy => ?_⟩
    exact k.new y hy (hxy ▸ h.taken x hx)

/-- Taking one new name, whether a node bears it or not. -/
theorem insert {taken : TakenNames} {q : QualifiedName} {names : List QualifiedName}
    (hq : q ∉ taken) (hn : names = [q] ∨ names = []) : Handed taken names (taken.insert q) where
  kept x hx := Std.TreeSet.mem_insert.2 (.inr hx)
  taken x hx := by
    rcases hn with rfl | rfl
    · rw [List.mem_singleton.1 hx]
      exact Std.TreeSet.mem_insert_self
    · simp at hx
  new x hx := by
    rcases hn with rfl | rfl
    · rwa [List.mem_singleton.1 hx]
    · simp at hx
  distinct := by rcases hn with rfl | rfl <;> simp

end Handed

variable (file : SourceFile)

theorem wanted?_isSome {scope : Option String} {s : Site}
    (h : (file.language.classify s).isDeclaration) : (wanted? file scope s).isSome := by
  rcases hk : file.language.classify s <;> simp [hk, Kind.isDeclaration] at h <;>
    simp [wanted?, hk]

theorem header_qualified_isSome (scope : Option String) (taken : TakenNames) (s : Site) :
    (header file s (given file scope taken s)).qualified.isSome =
      (file.language.classify s).isDeclaration := by
  simp only [header]
  split
  · rename_i h
    rw [h, given, Option.isSome_map, wanted?_isSome file h]
  · rename_i h
    simpa using h

theorem handed_given (scope : Option String) (taken : TakenNames) (s : Site) :
    let name := given file scope taken s
    Handed taken (header file s name).qualified.toList (name.elim taken taken.insert) := by
  rcases hw : wanted? file scope s with _ | wanted
  · have hn : given file scope taken s = none := by rw [given, hw]; rfl
    have hq : (header file s none).qualified = none := by simp [header]
    simp only [hn, hq]
    exact .nothing taken
  · have hn : given file scope taken s = some (taken.free wanted) := by rw [given, hw]; rfl
    simp only [hn, header]
    refine .insert (TakenNames.free_notMem taken wanted) ?_
    split
    · exact .inl rfl
    · exact .inr rfl

theorem handed_loweredAll (sites : List Site) : ∀ (scope : Option String) (taken : TakenNames),
    Handed taken (Node.qualifiedNames (loweredAll file scope taken sites).1)
      (loweredAll file scope taken sites).2 := by
  induction sites using sites_induction file.language with
  | nil =>
    intro scope taken
    rw [loweredAll_nil]
    exact .nothing taken
  | cons s rest ihchildren ihrest =>
    intro scope taken
    rw [loweredAll_cons, lowered_eq]
    simp only [Node.qualifiedNames_cons]
    exact ((handed_given file scope taken s).append (ihchildren _ _)).append (ihrest scope _)

/-- A node of a lowered tree bears a qualified name exactly if it is a declaration. -/
theorem qualified_isSome (sites : List Site) : ∀ (scope : Option String) (taken : TakenNames),
    ∀ n ∈ Node.preorders none (loweredAll file scope taken sites).1,
      n.head.qualified.isSome = n.isDeclaration := by
  induction sites using sites_induction file.language with
  | nil => simp [Node.preorders]
  | cons s rest ihchildren ihrest =>
    intro scope taken n hn
    rw [loweredAll_cons, lowered_eq] at hn
    simp only [Node.preorders, Node.preorder, reduceCtorEq, if_false, List.cons_append,
      List.mem_cons, List.mem_append] at hn
    rcases hn with rfl | hn | hn
    · exact header_qualified_isSome file scope taken s
    · exact ihchildren _ _ n hn
    · exact ihrest _ _ n hn

end Lowering

section Lower

variable (language : Language) (bytes : ByteArray) (path : String) (root : Concrete)

/-- The nodes of a lowered tree are those of the recursion from its root. -/
theorem nodes_lower :
    (lower language bytes path root).nodes =
      Node.preorders none
        (Lowering.loweredAll (.ofTree language bytes path root) none ∅ [.root root]).1 := by
  rw [Node.nodes_eq, lower, Lowering.tree_eq, Lowering.loweredAll_cons]
  simp [Node.preorders]

theorem qualified_isSome_lower {n : Node} (h : n ∈ (lower language bytes path root).nodes) :
    n.head.qualified.isSome = n.isDeclaration := by
  rw [nodes_lower] at h
  exact Lowering.qualified_isSome _ _ _ _ n h

theorem qualified_eq_none_lower {n : Node} (h : n ∈ (lower language bytes path root).nodes)
    (hd : ¬n.isDeclaration) : n.head.qualified = none := by
  have hq := qualified_isSome_lower language bytes path root h
  rw [Bool.not_eq_true] at hd
  rwa [hd, Option.isSome_eq_false_iff, Option.isNone_iff_eq_none] at hq

/-- What a lowered node answers to the question for its qualified name is what it was given. -/
theorem qualifiedName?_lower {n : Node} (h : n ∈ (lower language bytes path root).nodes) :
    n.qualifiedName? = n.head.qualified := by
  rw [Node.qualifiedName?]
  split
  · rfl
  · rename_i hd
    exact (qualified_eq_none_lower language bytes path root h hd).symm

theorem qualifiedNames_lower_nodup :
    ((lower language bytes path root).nodes.filterMap (·.qualifiedName?)).Nodup := by
  rw [List.filterMap_congr fun n hn => qualifiedName?_lower language bytes path root hn,
    nodes_lower]
  exact (Lowering.handed_loweredAll _ _ none ∅).distinct

/-- In the tree of any source every type and operation declaration, and no other node, has a
qualified name, and no two of these names are the same. -/
theorem declarations_distinctly_named :
    (∀ n ∈ (lower language bytes path root).nodes,
      n.isDeclaration → ∃ name, n.qualifiedName? = some name) ∧
    (∀ n ∈ (lower language bytes path root).nodes,
      ¬n.isDeclaration → n.head.qualified = none) ∧
    ((lower language bytes path root).nodes.filterMap (·.qualifiedName?)).Nodup := by
  refine ⟨fun n hn hd => ?_, fun n hn hd => ?_, qualifiedNames_lower_nodup language bytes path root⟩
  · rw [qualifiedName?_lower language bytes path root hn, ← Option.isSome_iff_exists,
      qualified_isSome_lower language bytes path root hn, hd]
  · exact qualified_eq_none_lower language bytes path root hn hd

end Lower

end CodeGauge

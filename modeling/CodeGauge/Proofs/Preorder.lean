import CodeGauge.Tree.Walk

/-!
# The nodes of a tree in document order

`Node.walk` takes nodes off a stack of pending ones. `preorder` lists the same nodes by recursion
on the tree: a node, then what is below it, unless the node is a barrier. Whatever the stack holds,
the walk still to come is the recursion over the stack (`walk_eq`), so the walks that the rules and
metrics start are recursions over the children of a node (`nodesBelow_eq`).

A barrier only leaves nodes out, and a walk started at a node of a tree stays in the tree
(`mem_nodes_of_mem`).
-/

namespace CodeGauge

namespace Node

mutual

/-- A node and the nodes below it in document order, without those behind a barrier. -/
def preorder (barrier : Option Kind) : Node → List Node
  | mk head children =>
    mk head children :: if barrier = some head.kind then [] else preorders barrier children

/-- The nodes of several trees, one tree after the other. -/
def preorders (barrier : Option Kind) : List Node → List Node
  | [] => []
  | n :: ns => n.preorder barrier ++ preorders barrier ns

end

variable (barrier : Option Kind)

theorem preorder_eq (n : Node) :
    n.preorder barrier = n :: preorders barrier (n.entered barrier) := by
  obtain ⟨head, children⟩ := n
  rw [preorder, entered]
  by_cases h : barrier = some head.kind
  · simp [h, kind, Node.head, preorders]
  · simp [h, kind, Node.head, Node.children]

@[simp] theorem entered_none (n : Node) : n.entered none = n.children := by
  rw [entered, if_neg (by simp)]

theorem preorders_append (ns ms : List Node) :
    preorders barrier (ns ++ ms) = preorders barrier ns ++ preorders barrier ms := by
  induction ns with
  | nil => simp [preorders]
  | cons n ns ih => simp [preorders, ih]

/-- What a walk still lists is the pre-order of what is pending. -/
theorem walk_eq (found pending : List Node) :
    walk barrier found pending = found.reverse ++ preorders barrier pending := by
  fun_induction walk barrier found pending with
  | case1 found => simp [preorders]
  | case2 found n pending ih =>
    rw [ih, preorders_append, preorders, preorder_eq]
    simp

theorem nodesBelow_eq (n : Node) : n.nodesBelow barrier = preorders barrier n.children := by
  simp [nodesBelow, walk_eq]

theorem descendants_eq (n : Node) : n.descendants = preorders none n.children :=
  nodesBelow_eq none n

/-- All nodes of a tree, its root included. -/
def nodes (n : Node) : List Node := n :: n.descendants

theorem nodes_eq (n : Node) : n.nodes = n.preorder none := by
  rw [nodes, preorder_eq, descendants_eq]
  rfl

/-! ## Walks inside walks -/

mutual

theorem preorder_subset : ∀ n : Node, n.preorder barrier ⊆ n.preorder none
  | mk head children => by
    intro x hx
    rw [preorder, List.mem_cons] at hx
    rw [preorder, List.mem_cons]
    rcases hx with rfl | hx
    · exact .inl rfl
    · split at hx
      · simp at hx
      · exact .inr (by simpa using preorders_subset children hx)

theorem preorders_subset : ∀ ns : List Node, preorders barrier ns ⊆ preorders none ns
  | [] => by simp [preorders]
  | n :: ns => by
    rw [preorders, preorders]
    exact List.append_subset.2 ⟨fun _ hx => List.mem_append_left _ (preorder_subset n hx),
      fun _ hx => List.mem_append_right _ (preorders_subset ns hx)⟩

end

mutual

theorem mem_preorder_trans {x y : Node} (hy : y ∈ x.preorder none) :
    ∀ n : Node, x ∈ n.preorder none → y ∈ n.preorder none
  | mk head children, hx => by
    rw [preorder, List.mem_cons] at hx
    rcases hx with rfl | hx
    · exact hy
    · rw [preorder, List.mem_cons]
      exact .inr (by simpa using mem_preorders_trans hy children (by simpa using hx))

theorem mem_preorders_trans {x y : Node} (hy : y ∈ x.preorder none) :
    ∀ ns : List Node, x ∈ preorders none ns → y ∈ preorders none ns
  | [], hx => by simp [preorders] at hx
  | n :: ns, hx => by
    rw [preorders, List.mem_append] at hx ⊢
    exact hx.imp (mem_preorder_trans hy n) (mem_preorders_trans hy ns)

end

variable {barrier}

/-- A walk started at a node of a tree stays in the tree. -/
theorem mem_nodes_of_mem {n x y : Node} (hx : x ∈ n.nodes) (hy : y ∈ x.nodesBelow barrier) :
    y ∈ n.nodes := by
  have hxy : y ∈ x.nodes := by
    rw [nodesBelow_eq] at hy
    rw [nodes, descendants_eq]
    exact List.mem_cons_of_mem _ (preorders_subset barrier _ hy)
  rw [nodes_eq] at hx hxy ⊢
  exact mem_preorder_trans hxy n hx

theorem mem_nodes_of_mem_descendantsOfKind {n x : Node} {kind : Kind}
    (h : x ∈ n.descendantsOfKind kind) : x ∈ n.nodes :=
  List.mem_cons_of_mem _ (List.mem_filter.1 h).1

theorem mem_nodes_of_mem_declaredOperations {n type op : Node} (ht : type ∈ n.nodes)
    (h : op ∈ type.declaredOperations) : op ∈ n.nodes :=
  mem_nodes_of_mem ht (List.mem_filter.1 h).1

end Node

end CodeGauge

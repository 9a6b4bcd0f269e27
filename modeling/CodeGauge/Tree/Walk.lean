import CodeGauge.Tree.Node

/-!
# Walks below a node

`nodesBelow` lists the nodes strictly below a node in document order. A barrier kind stops the walk:
its nodes are listed but not entered, whatever the kind of the node the walk starts at. The walk
keeps the pending nodes itself, so the depth of a tree costs no stack.
-/

namespace CodeGauge

namespace Node

/-- The children a walk goes on with: none behind a barrier. -/
def entered (barrier : Option Kind) (n : Node) : List Node :=
  if barrier = some n.kind then [] else n.children

theorem sizes_entered_lt (barrier : Option Kind) (n : Node) :
    sizes (n.entered barrier) < n.size := by
  rw [size_eq, entered]
  split
  · rw [sizes]
    omega
  · omega

/-- Walks the pending nodes, nearest first, on top of the nodes already found, last first. -/
def walk (barrier : Option Kind) (found : List Node) : List Node → List Node
  | [] => found.reverse
  | n :: pending => walk barrier (n :: found) (n.entered barrier ++ pending)
termination_by pending => sizes pending
decreasing_by
  have := sizes_entered_lt barrier n
  simp only [sizes, sizes_append]
  omega

/-- The nodes below a node, in document order, up to the barrier. -/
def nodesBelow (barrier : Option Kind) (n : Node) : List Node := walk barrier [] n.children

/-- Every node below a node. -/
def descendants (n : Node) : List Node := n.nodesBelow none

/-- The nodes below a node without those below a barrier. -/
def descendantsWithin (n : Node) (barrier : Kind) : List Node := n.nodesBelow (some barrier)

def descendantsOfKind (n : Node) (kind : Kind) : List Node :=
  n.descendants.filter (·.kind = kind)

/-- The operations of a type: those below it that no nested type encloses. -/
def declaredOperations (n : Node) : List Node :=
  (n.descendantsWithin .typeDeclaration).filter (·.kind = .operationDeclaration)

/-- Whether a node of one of the kinds is below. -/
def containsAny (n : Node) (kinds : List Kind) : Bool := n.descendants.any (kinds.contains ·.kind)

/-- Whether a node of the kind is below. -/
def contains (n : Node) (kind : Kind) : Bool := n.descendants.any (·.kind = kind)

end Node

end CodeGauge

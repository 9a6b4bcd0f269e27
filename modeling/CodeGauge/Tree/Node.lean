import CodeGauge.Tree.Kind

/-!
# Source trees

A node has a kind, the grammar's own word for it, the lines it spans, and, if it declares something,
a name and a qualified name. Children stand in source order.
-/

namespace CodeGauge

/-- The lines of a node, first and last, counted from one. -/
structure Span where
  first : Nat
  last : Nat
  deriving DecidableEq

/-- Lines from the first to the last, none for an inverted span. -/
def Span.extent (s : Span) : Nat := s.last - s.first

/-- Identity of a declaration: `com.acme.Order`, `com.acme.Order#total(int)`. -/
abbrev QualifiedName := String

namespace QualifiedName

/-- A type in an owner, or in no module. -/
def nested (owner name : String) : QualifiedName :=
  if owner = "" then name else owner ++ "." ++ name

/-- An operation of an owner, with the types of its parameters. -/
def operation (owner name : String) (parameters : List String) : QualifiedName :=
  owner ++ "#" ++ name ++ "(" ++ ",".intercalate parameters ++ ")"

end QualifiedName

/-- What a node says about itself. -/
structure Header where
  kind : Kind
  rawKind : String
  span : Span
  name : Option String := none
  qualified : Option QualifiedName := none
  deriving DecidableEq

/-- A node of a source tree. -/
inductive Node where
  | mk (head : Header) (children : List Node)

namespace Node

def head : Node → Header
  | mk head _ => head

def children : Node → List Node
  | mk _ children => children

/-- A node without children. -/
def leaf (head : Header) : Node := mk head []

instance : Inhabited Node := ⟨leaf ⟨.other, "", ⟨0, 0⟩, none, none⟩⟩

def kind (n : Node) : Kind := n.head.kind

def rawKind (n : Node) : String := n.head.rawKind

def span (n : Node) : Span := n.head.span

def firstLine (n : Node) : Nat := n.span.first

def lastLine (n : Node) : Nat := n.span.last

/-- The simple name of a declaration or a mark. -/
def name? (n : Node) : Option String := n.head.name

def isDeclaration (n : Node) : Bool := n.kind.isDeclaration

/-- The qualified name, which only declarations have. -/
def qualifiedName? (n : Node) : Option QualifiedName :=
  if n.isDeclaration then n.head.qualified else none

def childrenOfKind (n : Node) (kind : Kind) : List Node := n.children.filter (·.kind = kind)

def firstChildOfKind? (n : Node) (kind : Kind) : Option Node := n.children.find? (·.kind = kind)

mutual

/-- Number of nodes of a tree. -/
def size : Node → Nat
  | mk _ children => 1 + sizes children

/-- Number of nodes of several trees. -/
def sizes : List Node → Nat
  | [] => 0
  | n :: ns => n.size + sizes ns

end

theorem size_eq (n : Node) : n.size = 1 + sizes n.children := by
  cases n; simp only [size, children]

theorem sizes_append (ns ms : List Node) : sizes (ns ++ ms) = sizes ns + sizes ms := by
  induction ns with
  | nil => simp [sizes]
  | cons n ns ih => simp [sizes, ih, Nat.add_assoc]

end Node

end CodeGauge

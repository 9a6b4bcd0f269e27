/-!
# Concrete syntax trees

A concrete tree is what a grammar makes of a file: nodes with the grammar's kinds, byte ranges and
rows, some of them named, some stored under a field of their parent. A `Site` is a node where it
stands: with its parent and the siblings before it. Everything a grammar's classification looks at
is in a site.
-/

namespace CodeGauge

/-- What a grammar says about one node. Bytes and rows count from zero. -/
structure Row where
  kind : String
  named : Bool
  field : Option String
  start : Nat
  stop : Nat
  firstRow : Nat
  lastRow : Nat
  deriving DecidableEq

/-- A concrete syntax tree. -/
inductive Concrete where
  | mk (row : Row) (children : List Concrete)

namespace Concrete

def row : Concrete → Row
  | mk row _ => row

def children : Concrete → List Concrete
  | mk _ children => children

def kind (c : Concrete) : String := c.row.kind

def isNamed (c : Concrete) : Bool := c.row.named

def field (c : Concrete) : Option String := c.row.field

def namedChildren (c : Concrete) : List Concrete := c.children.filter (·.isNamed)

/-- The first child, named or not, under a field. -/
def childByField? (c : Concrete) (field : String) : Option Concrete :=
  c.children.find? (·.field = some field)

/-- The bytes of a node as text, if they are text. -/
def text? (source : ByteArray) (c : Concrete) : Option String :=
  String.fromUTF8? (source.extract c.row.start c.row.stop)

/-- The text of a node, empty if its bytes are no text. -/
def text (source : ByteArray) (c : Concrete) : String := (c.text? source).getD ""

/-- The text of the child under a field, if there is one and it is text. -/
def fieldText? (source : ByteArray) (c : Concrete) (field : String) : Option String :=
  (c.childByField? field).bind (·.text? source)

/-- Whether a binary expression short-circuits. -/
def isShortCircuit (c : Concrete) : Bool :=
  match c.childByField? "operator" with
  | some op => op.kind == "&&" || op.kind == "||"
  | none => false

mutual

/-- Number of nodes of a concrete tree. -/
def size : Concrete → Nat
  | mk _ children => 1 + sizes children

/-- Number of nodes of several concrete trees. -/
def sizes : List Concrete → Nat
  | [] => 0
  | c :: cs => c.size + sizes cs

end

mutual

/-- Number of levels of a concrete tree. -/
def height : Concrete → Nat
  | mk _ children => 1 + heights children

/-- Number of levels of the highest of several concrete trees. -/
def heights : List Concrete → Nat
  | [] => 0
  | c :: cs => max c.height (heights cs)

end

theorem size_eq (c : Concrete) : c.size = 1 + sizes c.children := by
  cases c; simp only [size, children]

theorem height_eq (c : Concrete) : c.height = 1 + heights c.children := by
  cases c; simp only [height, children]

theorem sizes_append (cs ds : List Concrete) : sizes (cs ++ ds) = sizes cs + sizes ds := by
  induction cs with
  | nil => simp [sizes]
  | cons c cs ih => simp [sizes, ih, Nat.add_assoc]

theorem height_le_heights {c : Concrete} {cs : List Concrete} (h : c ∈ cs) :
    c.height ≤ heights cs := by
  induction cs with
  | nil => simp at h
  | cons d ds ih =>
    simp only [heights]
    rcases List.mem_cons.1 h with rfl | h
    · omega
    · have := ih h
      omega

theorem heights_le {cs : List Concrete} {n : Nat} (h : ∀ c ∈ cs, c.height ≤ n) :
    heights cs ≤ n := by
  induction cs with
  | nil => simp [heights]
  | cons d ds ih =>
    have h1 := h d (by simp)
    have h2 := ih fun c hc => h c (by simp [hc])
    simp only [heights]
    omega

/-- The first answer to `f` over the pending nodes and all below them, in document order. -/
def findFirst? {α : Type} (f : Concrete → Option α) : List Concrete → Option α
  | [] => none
  | c :: pending =>
    match f c with
    | some a => some a
    | none => findFirst? f (c.children ++ pending)
termination_by pending => sizes pending
decreasing_by
  simp only [sizes, sizes_append, size_eq c]
  omega

end Concrete

/-- A node where it stands: its parent, and the siblings before it, nearest first. -/
structure Site where
  node : Concrete
  parent : Option Concrete
  before : List Concrete

namespace Site

/-- The root of a tree. -/
def root (c : Concrete) : Site := ⟨c, none, []⟩

def kind (s : Site) : String := s.node.kind

/-- Whether a node is the one that its parent stores under a field: the first with that field. -/
def isField (s : Site) (field : String) : Bool :=
  s.parent.isSome && s.node.field == some field && s.before.all (·.field != some field)

def parentKind? (s : Site) : Option String := s.parent.map (·.kind)

end Site

namespace Concrete

/-- The sites of a list of siblings, the ones before them given. -/
def sitesFrom (parent : Concrete) (before : List Concrete) : List Concrete → List Site
  | [] => []
  | c :: cs => ⟨c, some parent, before⟩ :: sitesFrom parent (c :: before) cs

/-- The sites of the named children. -/
def sites (c : Concrete) : List Site :=
  (sitesFrom c [] c.children).filter (·.node.isNamed)

theorem mem_sitesFrom {parent : Concrete} {before cs : List Concrete} {s : Site}
    (h : s ∈ sitesFrom parent before cs) :
    s.parent = some parent ∧ s.node ∈ cs ∧ ∀ b ∈ s.before, b ∈ before ∨ b ∈ cs := by
  induction cs generalizing before with
  | nil => simp [sitesFrom] at h
  | cons c cs ih =>
    rcases List.mem_cons.1 h with rfl | h
    · exact ⟨rfl, by simp, fun b hb => .inl hb⟩
    · obtain ⟨hp, hn, hb⟩ := ih h
      refine ⟨hp, by simp [hn], fun b h => ?_⟩
      rcases hb b h with h | h
      · rcases List.mem_cons.1 h with rfl | h
        · simp
        · exact .inl h
      · simp [h]

theorem mem_sites {c : Concrete} {s : Site} (h : s ∈ c.sites) :
    s.parent = some c ∧ s.node ∈ c.children ∧ ∀ b ∈ s.before, b ∈ c.children := by
  obtain ⟨hp, hn, hb⟩ := mem_sitesFrom (List.mem_filter.1 h).1
  exact ⟨hp, hn, fun b h => by simpa using hb b h⟩

end Concrete

end CodeGauge

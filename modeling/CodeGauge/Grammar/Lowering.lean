import CodeGauge.Tree.Node
import CodeGauge.Grammar.Dispatch
import CodeGauge.Grammar.Naming

/-!
# Lowering a concrete tree

A concrete tree becomes a source tree node by node. A declaration is named under the innermost scope
around it and opens a scope of its own; its children are the marks that belong to it, then its named
children. The walk keeps a stack of frames, one for each node whose children are not finished, so
the depth of a tree costs no stack. It ends: a mark may stand outside its declaration, but beside
it, and no mark is a declaration.
-/

namespace CodeGauge

/-- A file being lowered. -/
structure SourceFile where
  language : Language
  bytes : ByteArray
  /-- What declarations outside all others are named under. -/
  moduleName : String

/-- The file of a concrete tree. -/
def SourceFile.ofTree (language : Language) (bytes : ByteArray) (path : String) (root : Concrete) :
    SourceFile :=
  ⟨language, bytes, language.moduleName bytes root path⟩

namespace Lowering

/-- The sites whose nodes become the children of a node. -/
def childSites (language : Language) (s : Site) : List Site :=
  (if (language.classify s).isDeclaration then language.attachedMarks s else []) ++ s.node.sites

/-! ## The walk ends -/

/-- Levels of the highest tree at a site or beside it. -/
def breadth (s : Site) : Nat :=
  max s.node.height (max (Concrete.heights s.before)
    (match s.parent with | some parent => Concrete.heights parent.children | none => 0))

/-- Falls from a node to its children and from a declaration to the marks beside it. -/
def rank (language : Language) (s : Site) : Nat :=
  if (language.classify s).isDeclaration then 2 * breadth s + 1 else 2 * s.node.height

theorem height_le_breadth {s a : Site} (h : Language.Beside s a) : a.node.height ≤ breadth s := by
  rcases h with h | ⟨parent, hp, h⟩
  · have := Concrete.height_le_heights h
    simp only [breadth]; omega
  · have := Concrete.height_le_heights h
    simp only [breadth, hp]; omega

theorem rank_site_lt {language : Language} {s c : Site} (h : c ∈ s.node.sites) :
    rank language c < rank language s := by
  obtain ⟨hp, hn, hb⟩ := Concrete.mem_sites h
  have h1 := Concrete.height_le_heights hn
  have h2 : Concrete.heights c.before ≤ Concrete.heights s.node.children :=
    Concrete.heights_le fun b hb' => Concrete.height_le_heights (hb b hb')
  have h3 := Concrete.height_eq s.node
  have h4 : rank language c ≤ 2 * Concrete.heights s.node.children + 1 := by
    simp only [rank, breadth, hp]
    split <;> omega
  have h5 : 2 * s.node.height ≤ rank language s := by
    simp only [rank, breadth]
    split <;> omega
  omega

theorem rank_lt {language : Language} {s c : Site} (h : c ∈ childSites language s) :
    rank language c < rank language s := by
  rcases List.mem_append.1 h with h | h
  · split at h
    · rename_i hd
      obtain ⟨hk, hb⟩ := Language.classify_attachedMarks h
      have h1 := height_le_breadth hb
      have h2 : rank language s = 2 * breadth s + 1 := by simp [rank, hd]
      have h3 : rank language c = 2 * c.node.height := by simp [rank, hk, Kind.isDeclaration]
      omega
    · simp at h
  · exact rank_site_lt h

/-- Number of nodes that a site is lowered to. -/
def weight (language : Language) (s : Site) : Nat :=
  1 + (childSites language s).attach.foldr (fun c n =>
    have := rank_lt c.2
    weight language c.1 + n) 0
termination_by rank language s

/-- Number of nodes that several sites are lowered to. -/
def weights (language : Language) (sites : List Site) : Nat :=
  sites.foldr (fun s n => weight language s + n) 0

theorem weights_cons (language : Language) (s : Site) (rest : List Site) :
    weights language (s :: rest) = weight language s + weights language rest := rfl

theorem weight_eq (language : Language) (s : Site) :
    weight language s = 1 + weights language (childSites language s) := by
  rw [weight, weights]
  congr 1
  exact List.foldr_attach (f := fun c n => weight language c + n)

/-! ## One node -/

/-- The innermost scope, or the module. -/
def owner (file : SourceFile) (scopes : List String) : String :=
  scopes.headD file.moduleName

/-- A node as it is entered: what it says about itself, and the scope it opens for its children. -/
structure Entry where
  head : Header
  scope : Option String

/-- Names a node. A declaration without a name of its own is anonymous; one owned by a receiver is
named under the receiver's type in the module. -/
def enter (file : SourceFile) (scopes : List String) (taken : TakenNames) (s : Site) :
    Entry × TakenNames :=
  let row := s.node.row
  let kind := file.language.classify s
  let head : Header := { kind, rawKind := row.kind, span := ⟨row.firstRow + 1, row.lastRow + 1⟩ }
  let name := (file.language.declarationName? file.bytes s.node).getD "<anonymous>"
  let declare (wanted : QualifiedName) : Entry × TakenNames :=
    let qualified := taken.free wanted
    (⟨{ head with name := some name, qualified := some qualified }, some qualified⟩,
      taken.insert qualified)
  match kind with
  | .typeDeclaration => declare (QualifiedName.nested (owner file scopes) name)
  | .operationDeclaration =>
    let home := match file.language.operationOwner? file.bytes s.node with
      | some receiver => QualifiedName.nested file.moduleName receiver
      | none => owner file scopes
    declare (QualifiedName.operation home name (file.language.parameterTypes file.bytes s.node))
  | .mark => (⟨{ head with name := file.language.markName? file.bytes s.node }, none⟩, taken)
  | _ =>
    match file.language.scopeSegment? file.bytes s with
    | some segment =>
      let scope := taken.free (QualifiedName.nested (owner file scopes) segment)
      (⟨head, some scope⟩, taken.insert scope)
    | none => (⟨head, none⟩, taken)

/-! ## All nodes -/

/-- A node whose children are not all lowered yet; the finished ones come last first. -/
structure Frame where
  head : Header
  done : List Node
  pending : List Site
  opened : Bool

/-- A frame's node, its children finished. -/
def Frame.node (f : Frame) : Node := .mk f.head f.done.reverse

/-- The frame of a node just entered. -/
def Frame.start (e : Entry) (pending : List Site) : Frame := ⟨e.head, [], pending, e.scope.isSome⟩

/-- Nodes that a stack of frames has still to enter. -/
def ahead (language : Language) : List Frame → Nat
  | [] => 0
  | f :: outer => weights language f.pending + ahead language outer

/-- Finishes the top frame and the frames around it, and with them the tree. -/
def run (file : SourceFile) (scopes : List String) (taken : TakenNames) (top : Frame)
    (outer : List Frame) : Node :=
  match _h : top.pending with
  | s :: rest =>
    let (e, taken) := enter file scopes taken s
    run file (e.scope.toList ++ scopes) taken (.start e (childSites file.language s))
      ({ top with pending := rest } :: outer)
  | [] =>
    match outer with
    | [] => top.node
    | around :: outer =>
      run file (if top.opened then scopes.tail else scopes) taken
        { around with done := top.node :: around.done } outer
termination_by 2 * ahead file.language (top :: outer) + outer.length
decreasing_by
  · have := weight_eq file.language s
    simp only [ahead, _h, weights_cons, List.length_cons, Frame.start]
    omega
  · simp only [ahead, _h, List.length_cons]
    omega

/-- The source tree of a concrete tree. -/
def tree (file : SourceFile) (root : Concrete) : Node :=
  let site := Site.root root
  let (e, taken) := enter file [] ∅ site
  run file e.scope.toList taken (.start e (childSites file.language site)) []

end Lowering

/-- The source tree of a file in a language at a path. -/
def lower (language : Language) (bytes : ByteArray) (path : String) (root : Concrete) : Node :=
  Lowering.tree (SourceFile.ofTree language bytes path root) root

end CodeGauge

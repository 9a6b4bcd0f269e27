import CodeGauge.Tree.Node
import CodeGauge.Rule.Property
import CodeGauge.Rule.Message

/-!
# Counting rules

A counting rule scores the nodes of one kind and reports those whose score is above its minimum.
Scores are summed from the leaves up on a stack of frames; nodes that count as a whole are not
entered.
-/

namespace CodeGauge

/-- How nodes contribute to the score of the nodes above them. -/
inductive Scoring where
  /-- Every node counts one, except these kinds. -/
  | allExcept (kinds : List Kind)
  /-- Nodes of this kind count one, whatever is below them. -/
  | only (kind : Kind)
  /-- A target's score is its line extent. -/
  | span
  deriving DecidableEq

/-- A counting rule. -/
structure NodeCountRule where
  name : String
  message : String
  target : Kind
  scoring : Scoring
  minimum : Float
  priority : Priority := .medium
  deriving DecidableEq

/-- A target node above the minimum. -/
structure DataPoint where
  node : Node
  score : Nat
  /-- The score as reported. -/
  label : String
  message : String

namespace NodeCountRule

/-- Whether a node counts one and is not entered. -/
def countsWhole (r : NodeCountRule) (n : Node) : Bool :=
  match r.scoring with
  | .only kind => n.kind = kind && n.kind ≠ r.target
  | _ => false

/-- The score of a node whose children score `children` together. -/
def score (r : NodeCountRule) (n : Node) (children : Nat) : Nat :=
  match r.scoring with
  | .span => if n.kind = r.target then n.span.extent else children
  | .only _ => children
  | .allExcept kinds => if kinds.contains n.kind then children else children + 1

/-- Counts print bare, extents with one decimal place. -/
def label (r : NodeCountRule) (score : Nat) : String :=
  match r.scoring with
  | .span => Decimal.fixed 1 (Float.ofNat score)
  | _ => Decimal.plain (Float.ofNat score)

/-- The data point of a node with a score, if it is a target above the minimum. -/
def point? (r : NodeCountRule) (n : Node) (score : Nat) : Option DataPoint :=
  if n.kind = r.target ∧ r.minimum < Float.ofNat score then
    let label := r.label score
    some ⟨n, score, label, Message.format r.message [label]⟩
  else none

/-- A node whose children are not all scored yet, and the score of those that are. -/
structure Frame where
  node : Node
  pending : List Node
  sum : Nat

def Frame.start (n : Node) : Frame := ⟨n, n.children, 0⟩

/-- Nodes that a stack of frames has still to enter. -/
def ahead : List Frame → Nat
  | [] => 0
  | f :: outer => Node.sizes f.pending + ahead outer

/-- Scores the top frame and the frames around it; `points` comes last first. -/
def run (r : NodeCountRule) (points : List DataPoint) (top : Frame) (outer : List Frame) :
    List DataPoint :=
  match _h : top.pending with
  | c :: rest =>
    if r.countsWhole c then run r points { top with pending := rest, sum := top.sum + 1 } outer
    else run r points (.start c) ({ top with pending := rest } :: outer)
  | [] =>
    let score := r.score top.node top.sum
    let points := (r.point? top.node score).toList ++ points
    match outer with
    | [] => points.reverse
    | around :: outer => run r points { around with sum := around.sum + score } outer
termination_by 2 * ahead (top :: outer) + outer.length
decreasing_by
  · simp only [ahead, _h, Node.sizes, Node.size_eq c]
    omega
  · simp only [ahead, _h, Node.sizes, Frame.start, List.length_cons, Node.size_eq c]
    omega
  · simp only [ahead, _h, Node.sizes, List.length_cons]
    omega

/-- The targets of a tree above the minimum, children before parents. -/
def dataPoints (r : NodeCountRule) (root : Node) : List DataPoint :=
  if r.countsWhole root then [] else run r [] (.start root) []

/-- Sets a property: a counting rule has its minimum only. -/
def setProperty (r : NodeCountRule) (property : String) (value : PropertyValue) :
    Except ConfigFault NodeCountRule :=
  if property = minimumProperty then do
    return { r with minimum := ← value.numberFor r.name property }
  else .error (.unknownProperty r.name property)

end NodeCountRule

namespace Design

/-! ## The counting rules that come with the library -/

def excessiveImports : NodeCountRule where
  name := "ExcessiveImports"
  message := "A high number of imports can indicate a high degree of coupling within an object."
  target := .compilationUnit
  scoring := .only .importDeclaration
  minimum := 1

def excessiveClassLength : NodeCountRule where
  name := "ExcessiveClassLength"
  message := "Avoid really long classes."
  target := .typeDeclaration
  scoring := .span
  minimum := 1

def excessiveMethodCount : NodeCountRule where
  name := "ExcessiveMethodCount"
  message := "This class has too many methods, consider refactoring it."
  target := .typeDeclaration
  scoring := .only .operationDeclaration
  minimum := 1

def excessiveParameterList : NodeCountRule where
  name := "ExcessiveParameterList"
  message := "Avoid long parameter lists."
  target := .parameterList
  scoring := .only .parameter
  minimum := 10

end Design

end CodeGauge

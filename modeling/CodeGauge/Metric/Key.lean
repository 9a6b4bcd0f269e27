import CodeGauge.Tree.Node

/-!
# Metrics

A metric is told from others by its name and the kind of declaration it is computed on; how it is
computed is no part of its identity. Computing may have an effect, so that callers can observe when
it happens; the built-in metrics have none. A slot, a metric with a set of options, is what computed
values are remembered under.
-/

namespace CodeGauge

/-- The declarations a metric is computed on. -/
inductive MetricTarget where
  | type
  | operation
  deriving DecidableEq

namespace MetricTarget

def kind : MetricTarget → Kind
  | type => .typeDeclaration
  | operation => .operationDeclaration

def name : MetricTarget → String
  | type => "type"
  | operation => "operation"

end MetricTarget

/-- A set of option names, kept in ascending order. -/
structure MetricOptions where
  names : List String
  ascending : names.Pairwise (· < ·)
  deriving DecidableEq

namespace MetricOptions

def empty : MetricOptions := ⟨[], .nil⟩

instance : EmptyCollection MetricOptions := ⟨empty⟩

/-- Puts a name in its place in an ascending list, once. -/
def place (name : String) : List String → List String
  | [] => [name]
  | n :: ns =>
    if name < n then name :: n :: ns
    else if name = n then n :: ns
    else n :: place name ns

theorem mem_place {name x : String} {ns : List String} : x ∈ place name ns ↔ x = name ∨ x ∈ ns := by
  induction ns with
  | nil => simp [place]
  | cons n ns ih =>
    simp only [place]
    split
    · simp
    · split
      · rename_i h
        subst h
        simp
      · simp only [List.mem_cons, ih]
        constructor
        · rintro (h | h | h) <;> simp [h]
        · rintro (h | h | h) <;> simp [h]

theorem pairwise_place {name : String} {ns : List String} (h : ns.Pairwise (· < ·)) :
    (place name ns).Pairwise (· < ·) := by
  induction ns with
  | nil => simp [place]
  | cons n ns ih =>
    obtain ⟨hn, hs⟩ := List.pairwise_cons.1 h
    simp only [place]
    split
    · rename_i hlt
      refine List.pairwise_cons.2 ⟨fun x hx => ?_, h⟩
      rcases List.mem_cons.1 hx with rfl | hx
      · exact hlt
      · exact String.lt_trans hlt (hn x hx)
    · split
      · exact h
      · rename_i hlt hne
        refine List.pairwise_cons.2 ⟨fun x hx => ?_, ih hs⟩
        rcases mem_place.1 hx with rfl | hx
        · exact String.not_le.1 fun hle => hne (String.le_antisymm hle (String.not_lt.1 hlt))
        · exact hn x hx

/-- The set of the names of a list. -/
def ofList (names : List String) : MetricOptions :=
  names.foldr (fun n s => ⟨place n s.names, pairwise_place s.ascending⟩) empty

def contains (options : MetricOptions) (name : String) : Bool := options.names.contains name

def isEmpty (options : MetricOptions) : Bool := options.names.isEmpty

/-- The names in braces: `\x7ba, b\x7d`. -/
def text (options : MetricOptions) : String :=
  "\x7b" ++ ", ".intercalate options.names ++ "\x7d"

end MetricOptions

/-- What tells metrics apart. -/
structure MetricId where
  name : String
  target : MetricTarget
  deriving DecidableEq

/-- The metric in words: `LOC (type)`. -/
def MetricId.text (id : MetricId) : String := id.name ++ " (" ++ id.target.name ++ ")"

/-- A metric. A value that is not a number means that the metric does not apply to the node. -/
structure Metric (m : Type → Type) extends MetricId where
  compute : Node → MetricOptions → m Float
  /-- Whether the metric can be computed on a node of its target's kind. -/
  accepts : Node → Bool := fun _ => true

/-- Whether a node is of the metric's target and accepted by it. -/
def Metric.supports {m : Type → Type} (k : Metric m) (n : Node) : Bool :=
  n.kind = k.target.kind && k.accepts n

/-- What a computed value is remembered under. -/
structure Slot where
  metric : MetricId
  options : MetricOptions
  deriving DecidableEq

/-- The slot in words. -/
def Slot.text (s : Slot) : String :=
  "ParameterizedMetricKey(" ++ s.metric.text ++ ", " ++ s.options.text ++ ")"

/-- The slot of a metric with options. -/
def Metric.slot {m : Type → Type} (k : Metric m) (options : MetricOptions) : Slot :=
  ⟨k.toMetricId, options⟩

end CodeGauge

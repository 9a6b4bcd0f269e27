import CodeGauge.Metric.Request
import CodeGauge.Proofs.DistinctNames
import CodeGauge.Proofs.History

/-!
# Memos that hold true values

A request answers with what is remembered in its place, or computes; either way the answer stands in
the place afterwards and nothing else has changed (`requestIn_spec`). So a memo that holds only true
values of a metric for some nodes stays one (`TrueOf.requestIn`), if no two of the nodes share a
name, and every answer is the value on the node.

A roll-up is a run of requests. Whatever a single request keeps, the run keeps (`keeps_requestAll`),
so from a memo that is true of the operations of a type the metric is rolled up from its values on
them, and the memo then knows the value of every one that has a name (`rollUp_of_trueOf`).
-/

namespace CodeGauge

namespace Metric

/-- Where the value of a metric with options is remembered for a node. -/
def place? (k : Metric Id) (n : Node) (options : MetricOptions) : Option MemoPlace :=
  n.qualifiedName?.map (⟨k.target, ·, k.slot options⟩)

section Answer

variable (k : Metric Id) (n : Node) (force : Bool) (options : MetricOptions) (p : ProjectMemo)

/-- The answer to a request: what is remembered unless the request is forced, else the value. -/
def answer : Float :=
  (if force then none else (k.place? n options).bind p.contents).getD (k.compute n options).run

theorem requestIn_spec {side : MetricTarget} (ht : k.target = side) :
    (k.requestIn side n force options p).run.1 = k.answer n force options p ∧
      ∀ place, (k.requestIn side n force options p).run.2.contents place =
        if some place = k.place? n options then some (k.answer n force options p)
        else p.contents place := by
  subst ht
  unfold answer place?
  rcases hname : n.qualifiedName? with _ | name
  · cases force <;> simp [requestIn, request, fetch, hname]
  simp only [Option.map_some, Option.bind_some, Option.some.injEq]
  rcases hv : (if force then none else p.contents ⟨k.target, name, k.slot options⟩) with _ | value
  · have hrun : (k.requestIn k.target n force options p).run = ((k.compute n options).run,
        p.set k.target name
          ((p.get k.target name).put (k.slot options) (k.compute n options).run)) := by
      simp only [ProjectMemo.contents] at hv
      simp [requestIn, request, fetch, hname, hv]
    rw [hrun]
    exact ⟨rfl, p.contents_set_put k.target name (k.slot options) _⟩
  · have hrun : (k.requestIn k.target n force options p).run =
        (value, p.set k.target name (p.get k.target name)) := by
      simp only [ProjectMemo.contents] at hv
      simp [requestIn, request, fetch, hname, hv]
    rw [hrun]
    refine ⟨rfl, fun place => (p.contents_set_get k.target name place).trans ?_⟩
    split
    · rename_i h
      cases force <;> simp_all
    · rfl

end Answer

theorem place?_eq_some {k : Metric Id} {n : Node} {options : MetricOptions} {place : MemoPlace} :
    some place = k.place? n options ↔
      ∃ name, n.qualifiedName? = some name ∧ place = ⟨k.target, name, k.slot options⟩ := by
  unfold place?
  rcases n.qualifiedName? with _ | name <;> simp

end Metric

/-- Whether all that a memo holds of a metric for some nodes is what computing would give. -/
def ProjectMemo.TrueOf (p : ProjectMemo) (k : Metric Id) (nodes : List Node) : Prop :=
  ∀ n ∈ nodes, ∀ name, n.qualifiedName? = some name → ∀ options value,
    p.contents ⟨k.target, name, k.slot options⟩ = some value → value = (k.compute n options).run

namespace ProjectMemo.TrueOf

variable {p : ProjectMemo} {k : Metric Id} {nodes : List Node} {n : Node}

theorem empty : (∅ : ProjectMemo).TrueOf k nodes := by
  intro n _ name _ options value h
  rw [contents_empty] at h
  cases h

theorem answer_eq (h : p.TrueOf k nodes) (hn : n ∈ nodes) (force : Bool)
    (options : MetricOptions) : k.answer n force options p = (k.compute n options).run := by
  unfold Metric.answer Metric.place?
  rcases hname : n.qualifiedName? with _ | name
  · cases force <;> rfl
  rcases hv : p.contents ⟨k.target, name, k.slot options⟩ with _ | value
  · cases force <;> simp [hv]
  · have := h n hn name hname options value hv
    cases force <;> simp [hv, this]

theorem requestIn (hd : (nodes.filterMap (·.qualifiedName?)).Nodup) (h : p.TrueOf k nodes)
    {side : MetricTarget} (ht : k.target = side) (hn : n ∈ nodes) (force : Bool)
    (options : MetricOptions) : (k.requestIn side n force options p).run.2.TrueOf k nodes := by
  intro m hm name hname options' value hv
  rw [(k.requestIn_spec n force options p ht).2] at hv
  split at hv
  · rename_i hplace
    obtain ⟨name', hname', he⟩ := Metric.place?_eq_some.1 hplace
    simp only [MemoPlace.mk.injEq, Metric.slot, Slot.mk.injEq] at he
    obtain ⟨-, rfl, -, rfl⟩ := he
    obtain rfl := eq_of_nodup_filterMap hd hm hn hname hname'
    rw [h.answer_eq hn] at hv
    exact (Option.some.inj hv).symm
  · exact h m hm name hname options' value hv

/-- Requests for a metric leave the values of others alone. -/
theorem requestIn_of_ne {other : Metric Id} (h : p.TrueOf other nodes)
    (hne : other.toMetricId ≠ k.toMetricId) {side : MetricTarget} (ht : k.target = side) (n : Node)
    (force : Bool) (options : MetricOptions) :
    (k.requestIn side n force options p).run.2.TrueOf other nodes := by
  intro m hm name hname options' value hv
  rw [(k.requestIn_spec n force options p ht).2, if_neg] at hv
  · exact h m hm name hname options' value hv
  · intro hplace
    obtain ⟨_, -, he⟩ := Metric.place?_eq_some.1 hplace
    simp only [MemoPlace.mk.injEq, Metric.slot, Slot.mk.injEq] at he
    exact hne he.2.2.1

end ProjectMemo.TrueOf

/-! ## Requests in turn -/

/-- Whether a computation gives a value from any memo with a property and leaves one that has it. -/
def Keeps {α : Type} (P : ProjectMemo → Prop) (x : ProjectMemo → α × ProjectMemo) (a : α) : Prop :=
  ∀ p, P p → (x p).1 = a ∧ P (x p).2

theorem keeps_requestAll {P : ProjectMemo → Prop} {k : Metric Id} {force : Bool}
    {options : MetricOptions} : ∀ ops : List Node,
      (∀ op ∈ ops, Keeps P (fun p => (k.requestIn .operation op force options p).run)
        (k.compute op options).run) →
      Keeps P (fun p => (k.requestAll force options ops p).run)
        ((ops.map fun op => (k.compute op options).run).filter (!·.isNaN))
  | [], _ => fun _ hp => ⟨rfl, hp⟩
  | op :: ops, h => by
    intro p hp
    obtain ⟨hvalue, hp⟩ := h op List.mem_cons_self p hp
    have hrest := keeps_requestAll ops fun op h' => h op (List.mem_cons_of_mem _ h')
    obtain ⟨hvalues, hp⟩ := hrest _ hp
    refine ⟨?_, hp⟩
    rw [List.map_cons, List.filter_cons, ← hvalues, ← hvalue]
    simp only [Bool.not_eq_true', ← Bool.not_eq_true, ite_not]
    rfl

theorem isNaN_of_beq_zero {x : Float} (h : x == 0) : x.isNaN = false := by
  have hbeq : Float.Model.UnpackedFloat.beq x.toModel.unpack (0 : Float).toModel.unpack = true := h
  show x.toModel.unpack.isNaN = false
  cases hx : x.toModel.unpack with
  | notANumber =>
    rw [hx] at hbeq
    cases hbeq
  | _ => rfl

section RollUp

variable {k : Metric Id} (hk : k.target = .operation) (force : Bool) (options : MetricOptions)

include hk

theorem contents_requestAll_of_ne {place : MemoPlace} : ∀ (ops : List Node) (p : ProjectMemo),
    (∀ op ∈ ops, some place ≠ k.place? op options) →
      (k.requestAll force options ops p).run.2.contents place = p.contents place
  | [], _, _ => rfl
  | op :: ops, p, h => by
    have hrest := contents_requestAll_of_ne ops (k.requestIn .operation op force options p).run.2
      fun op' h' => h op' (List.mem_cons_of_mem _ h')
    refine hrest.trans ?_
    rw [(k.requestIn_spec op force options p hk).2, if_neg (h op List.mem_cons_self)]

/-- What is remembered stays remembered. -/
theorem contents_requestAll_isSome {place : MemoPlace} :
    ∀ (ops : List Node) (p : ProjectMemo), (p.contents place).isSome →
      ((k.requestAll force options ops p).run.2.contents place).isSome
  | [], _, h => h
  | op :: ops, p, h => by
    refine contents_requestAll_isSome ops (k.requestIn .operation op force options p).run.2 ?_
    rw [(k.requestIn_spec op force options p hk).2]
    split
    · rfl
    · exact h

theorem contents_requestAll_of_mem {op : Node} {place : MemoPlace}
    (hplace : some place = k.place? op options) : ∀ (ops : List Node) (p : ProjectMemo), op ∈ ops →
      ((k.requestAll force options ops p).run.2.contents place).isSome
  | o :: ops, p, h => by
    rcases List.mem_cons.1 h with rfl | h
    · refine contents_requestAll_isSome hk force options ops
        (k.requestIn .operation op force options p).run.2 ?_
      rw [(k.requestIn_spec op force options p hk).2, if_pos hplace]
      rfl
    · exact contents_requestAll_of_mem hplace ops (k.requestIn .operation o force options p).run.2 h

/-- From a memo that is true of some nodes, requests on any of them give the true values. -/
theorem requestAll_of_trueOf {nodes ops : List Node}
    (hd : (nodes.filterMap (·.qualifiedName?)).Nodup) (hops : ops ⊆ nodes) {p : ProjectMemo}
    (hp : p.TrueOf k nodes) :
    let asked := (k.requestAll force options ops p).run
    asked.1 = (ops.map fun op => (k.compute op options).run).filter (!·.isNaN) ∧
      asked.2.TrueOf k nodes := by
  refine keeps_requestAll (P := (·.TrueOf k nodes)) ops (fun op h p hp => ?_) p hp
  have hop := hops h
  rw [(k.requestIn_spec op force options p hk).1]
  exact ⟨hp.answer_eq hop force options, hp.requestIn hd hk hop force options⟩

/-- From a memo that is true of the operations of a type, a metric of operations is rolled up from
its values on those it supports, in document order and without those of nested types. Only what is
no number is left out, so zeros are kept. Afterwards the memo is as true as before, it has the value
of every supported operation with a name, and nothing else in it has changed. -/
theorem rollUp_of_trueOf (type : Node)
    (hd : (type.declaredOperations.filterMap (·.qualifiedName?)).Nodup) {p : ProjectMemo}
    (hp : p.TrueOf k type.declaredOperations) (mode : Rollup) :
    let below := Node.preorders (some .typeDeclaration) type.children
    let operations := below.filter fun n => n.kind = .operationDeclaration && k.supports n
    let values := (operations.map fun op => (k.compute op options).run).filter (!·.isNaN)
    let rolledUp := (k.rollUp type.declaredOperations force options mode p).run
    rolledUp.1 = mode.reduce values ∧
      (∀ op ∈ operations, (k.compute op options).run == 0 → (k.compute op options).run ∈ values) ∧
      rolledUp.2.TrueOf k type.declaredOperations ∧
      (∀ op ∈ operations, ∀ name, op.qualifiedName? = some name →
        rolledUp.2.contents ⟨.operation, name, k.slot options⟩ =
          some (k.compute op options).run) ∧
      ∀ place, (∀ op ∈ operations, some place ≠ k.place? op options) →
        rolledUp.2.contents place = p.contents place := by
  intro below operations values rolledUp
  have hops : type.declaredOperations.filter k.supports = operations :=
    supportedOperations_eq k type
  have hsubset : operations ⊆ type.declaredOperations := hops ▸ List.filter_subset_self _
  obtain ⟨hvalues, htrue⟩ := requestAll_of_trueOf hk force options hd hsubset hp
  have hrun : rolledUp = (mode.reduce (k.requestAll force options operations p).run.1,
      (k.requestAll force options operations p).run.2) := by
    rw [← hops]
    rfl
  rw [hrun]
  refine ⟨congrArg mode.reduce hvalues, fun op h hzero => ?_, htrue, fun op h name hname => ?_,
    fun place => contents_requestAll_of_ne hk force options operations p⟩
  · refine List.mem_filter.2 ⟨List.mem_map_of_mem h, ?_⟩
    rw [isNaN_of_beq_zero hzero]
    rfl
  · have hplace : some ⟨k.target, name, k.slot options⟩ = k.place? op options :=
      Metric.place?_eq_some.2 ⟨name, hname, rfl⟩
    obtain ⟨value, hv⟩ := Option.isSome_iff_exists.1
      (contents_requestAll_of_mem hk force options hplace operations p h)
    rw [← hk, hv, htrue op (hsubset h) name hname options value hv]

end RollUp

namespace Metric

/-- Lines of an operation; none known for one named `unknown`, and not asked for one named
`abstract`. -/
def knownLines : Metric Id where
  name := "LINES"
  target := .operation
  compute n _ :=
    pure (if n.name? = some "unknown" then Rollup.notANumber else Float.ofNat n.span.extent)
  accepts n := n.name? ≠ some "abstract"

def operationNamed (name : Option String) (lines : Nat) : Node :=
  .leaf ⟨.operationDeclaration, "method_declaration", ⟨1, 1 + lines⟩, name,
    name.map (QualifiedName.operation "T" · [])⟩

/-- A type with operations of all sorts, one of them in a nested type. -/
def mixedType : Node :=
  .mk ⟨.typeDeclaration, "class_declaration", ⟨1, 9⟩, some "T", some "T"⟩
    [operationNamed (some "empty") 0, operationNamed (some "unknown") 3, operationNamed none 2,
     operationNamed (some "abstract") 5,
     .mk ⟨.typeDeclaration, "class_declaration", ⟨6, 8⟩, some "U", some "T.U"⟩
      [operationNamed (some "inner") 7]]

/-- The memo after a request on the first operation. -/
def askedOnce : ProjectMemo :=
  (knownLines.requestIn .operation (operationNamed (some "empty") 0) false ∅ ∅).run.2

theorem mixedType_rolledUp :
    knownLines.target = .operation ∧
      (mixedType.declaredOperations.filterMap (·.qualifiedName?)).Nodup ∧
      askedOnce.TrueOf knownLines mixedType.declaredOperations ∧
      (knownLines.rollUp mixedType.declaredOperations false ∅ .average askedOnce).run.1 = 1 := by
  have hops : mixedType.declaredOperations = [operationNamed (some "empty") 0,
      operationNamed (some "unknown") 3, operationNamed none 2,
      operationNamed (some "abstract") 5] := by
    rw [Node.declaredOperations, Node.descendantsWithin, Node.nodesBelow_eq]
    rfl
  have hd : (mixedType.declaredOperations.filterMap (·.qualifiedName?)).Nodup := by
    rw [hops]
    decide
  have htrue : askedOnce.TrueOf knownLines mixedType.declaredOperations :=
    ProjectMemo.TrueOf.empty.requestIn hd rfl (by simp [hops]) false ∅
  refine ⟨rfl, hd, htrue, ?_⟩
  rw [(rollUp_of_trueOf rfl false ∅ mixedType hd htrue .average).1]
  decide

end Metric

end CodeGauge

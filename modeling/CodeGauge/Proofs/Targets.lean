import CodeGauge.Rule.NodeCount
import CodeGauge.Proofs.Lists
import CodeGauge.Proofs.Place

/-!
# The targets of a counting rule

The stack of frames comes to a recursion: `total` is the score of a node from those of its children,
and `reached` lists the nodes that the rule enters, children before parents, each with its place.
Finishing the top frame adds the scores of its pending children to it and reports them
(`run_pending`), so the data points of a tree are the targets among the reached nodes whose total is
above the minimum (`dataPoints_eq`).

A target below a node that counts as a whole is not reached, whatever its own score. Every other
target of a tree is reported exactly if it is when it is the root itself.
-/

namespace CodeGauge

namespace NodeCountRule

variable (r : NodeCountRule)

mutual

/-- The score of a node: what its own kind makes of the scores of its children. -/
def total : Node → Nat
  | .mk head children => r.score (.mk head children) (totals children)

/-- The scores of several nodes together; a node that counts as a whole scores one. -/
def totals : List Node → Nat
  | [] => 0
  | c :: cs => (if r.countsWhole c then 1 else total c) + totals cs

end

theorem total_eq (n : Node) : r.total n = r.score n (r.totals n.children) := by
  obtain ⟨head, children⟩ := n
  rw [total]
  rfl

mutual

/-- The nodes that are entered below a node that is, children before parents, with their places. -/
def reached : Node → List (Place × Node)
  | .mk head children => reachedFrom 0 children ++ [([], .mk head children)]

/-- The nodes entered in several trees, which are the children of one node from number `i` on. -/
def reachedFrom (i : Nat) : List Node → List (Place × Node)
  | [] => []
  | c :: cs =>
    (if r.countsWhole c then [] else (reached c).map (Prod.map (i :: ·) id)) ++
      reachedFrom (i + 1) cs

end

/-- The nodes entered in a tree: none if its root counts as a whole. -/
def entered (n : Node) : List (Place × Node) := if r.countsWhole n then [] else r.reached n

theorem reachedFrom_eq (i : Nat) (cs : List Node) :
    r.reachedFrom i cs = Node.gather r.entered i cs := by
  induction cs generalizing i with
  | nil => rw [reachedFrom, Node.gather]
  | cons c cs ih =>
    rw [reachedFrom, Node.gather, ih, entered]
    split
    · rfl
    · rfl

theorem reached_eq (n : Node) :
    r.reached n = Node.gather r.entered 0 n.children ++ [([], n)] := by
  obtain ⟨head, children⟩ := n
  rw [reached, reachedFrom_eq]
  rfl

/-! ## Which nodes are reached -/

/-- What is entered is every node with none that counts as a whole from the root down to it. -/
theorem mem_entered {n m : Node} {p : Place} :
    (p, m) ∈ r.entered n ↔
      n.nodeAt? p = some m ∧ n.NoneAbove (r.countsWhole ·) p ∧ ¬r.countsWhole m := by
  have hnil (n m : Node) : ([], m) ∈ r.entered n ↔ n = m ∧ ¬r.countsWhole m := by
    rw [entered]
    split
    · rename_i hw
      refine ⟨fun h => absurd h List.not_mem_nil, ?_⟩
      rintro ⟨rfl, hm⟩
      exact absurd hw hm
    · rename_i hw
      rw [reached_eq, List.mem_append, or_iff_right Node.nil_notMem_gather, List.mem_singleton]
      constructor
      · intro h
        obtain ⟨-, rfl⟩ := Prod.mk.inj h
        exact ⟨rfl, hw⟩
      · rintro ⟨rfl, -⟩
        rfl
  have hcons (n m : Node) (i : Nat) (p : Place) : (i :: p, m) ∈ r.entered n ↔
      ¬r.countsWhole n ∧ ∃ c, n.children[i]? = some c ∧ (p, m) ∈ r.entered c := by
    rw [entered]
    split
    · rename_i hw
      exact ⟨fun h => absurd h List.not_mem_nil, fun h => absurd hw h.1⟩
    · rename_i hw
      have hroot : (i :: p, m) ∉ [([], n)] := by simp
      rw [reached_eq, List.mem_append, or_iff_left hroot, Node.cons_mem_gather, and_iff_right hw]
  exact Node.mem_iff_noneAbove hnil hcons

theorem nodup_entered (n : Node) : ((r.entered n).map (·.1)).Nodup := by
  induction n using Node.children_induction with
  | mk head children ih =>
    rw [entered]
    split
    · exact .nil
    · have hbelow : ((Node.gather r.entered 0 children).map (·.1)).Nodup :=
        Node.pairwise_gather (R := (· ≠ ·)) (fun i p q h => by simpa using h)
          (fun i j p q h => by simp [Nat.ne_of_lt h]) 0 children ih
      rw [reached_eq, List.map_append]
      refine List.nodup_append.2 ⟨hbelow, by simp, fun p hp q hq => ?_⟩
      obtain ⟨⟨p, m⟩, hpm, rfl⟩ := List.mem_map.1 hp
      rintro rfl
      obtain rfl : p = [] := by simpa using hq
      exact Node.nil_notMem_gather hpm

/-! ## The frames -/

/-- The data points of some nodes, each scored by itself. -/
def pointsOf (found : List (Place × Node)) : List DataPoint :=
  found.filterMap fun x => r.point? x.2 (r.total x.2)

theorem pointsOf_append (xs ys : List (Place × Node)) :
    r.pointsOf (xs ++ ys) = r.pointsOf xs ++ r.pointsOf ys :=
  List.filterMap_append

theorem pointsOf_map (f : Place → Place) (xs : List (Place × Node)) :
    r.pointsOf (xs.map (Prod.map f id)) = r.pointsOf xs := by
  rw [pointsOf, List.filterMap_map]
  rfl

theorem pointsOf_reached (n : Node) :
    r.pointsOf (r.reached n) =
      r.pointsOf (Node.gather r.entered 0 n.children) ++ (r.point? n (r.total n)).toList := by
  have hn : r.pointsOf [([], n)] = (r.point? n (r.total n)).toList := by
    rw [pointsOf, List.filterMap_cons]
    rcases r.point? n (r.total n) with _ | d <;> rfl
  rw [reached_eq, pointsOf_append, hn]

section Frames

variable (points : List DataPoint) (n : Node) (sum : Nat) (outer : List Frame)

theorem run_cons_of_whole {c : Node} (h : r.countsWhole c) (rest : List Node) :
    r.run points ⟨n, c :: rest, sum⟩ outer = r.run points ⟨n, rest, sum + 1⟩ outer := by
  rw [run]
  simp [h]

theorem run_cons_of_not {c : Node} (h : ¬r.countsWhole c) (rest : List Node) :
    r.run points ⟨n, c :: rest, sum⟩ outer =
      r.run points (.start c) (⟨n, rest, sum⟩ :: outer) := by
  rw [run]
  simp [h]

theorem run_nil_cons (around : Frame) :
    r.run points ⟨n, [], sum⟩ (around :: outer) =
      r.run ((r.point? n (r.score n sum)).toList ++ points)
        { around with sum := around.sum + r.score n sum } outer := by
  rw [run]

theorem run_nil_nil :
    r.run points ⟨n, [], sum⟩ [] =
      ((r.point? n (r.score n sum)).toList ++ points).reverse := by
  rw [run]

/-- Whether entering a node from a frame around it ends with its points reported and its score
added to that frame. -/
def Finishes (c : Node) : Prop :=
  ∀ points n rest sum outer,
    r.run points (.start c) (⟨n, rest, sum⟩ :: outer) =
      r.run ((r.pointsOf (r.reached c)).reverse ++ points) ⟨n, rest, sum + r.total c⟩ outer

/-- If every pending child finishes, the top frame ends with the scores of all of them. -/
theorem run_pending {cs : List Node} (hcs : ∀ c ∈ cs, r.Finishes c) (i : Nat) :
    r.run points ⟨n, cs, sum⟩ outer =
      r.run ((r.pointsOf (Node.gather r.entered i cs)).reverse ++ points)
        ⟨n, [], sum + r.totals cs⟩ outer := by
  induction cs generalizing points sum i with
  | nil => rfl
  | cons c cs ih =>
    have hrest points sum := ih points sum (fun d hd => hcs d (List.mem_cons_of_mem _ hd)) (i + 1)
    rw [Node.gather, pointsOf_append, pointsOf_map, totals, entered]
    -- a whole child only adds to the sum; any other is entered and finishes by hypothesis
    by_cases hw : r.countsWhole c
    · rw [run_cons_of_whole r _ _ _ _ hw, hrest, if_pos hw, if_pos hw, Nat.add_assoc]
      rfl
    · rw [run_cons_of_not r _ _ _ _ hw, hcs c List.mem_cons_self, hrest, if_neg hw, if_neg hw,
        List.reverse_append, List.append_assoc, Nat.add_assoc]

theorem finishes (c : Node) : r.Finishes c := by
  induction c using Node.children_induction with
  | mk head children ih =>
    intro points n rest sum outer
    have hchildren : ∀ c ∈ (Node.mk head children).children, r.Finishes c := ih
    -- the frame of the node has no children left now, and its score goes to the frame around it
    rw [Frame.start, run_pending r _ _ _ _ hchildren 0, run_nil_cons, Nat.zero_add,
      pointsOf_reached, total_eq, List.reverse_append, reverse_toList, List.append_assoc]

end Frames

/-- The data points of a tree are those of the nodes entered, each scored by itself. -/
theorem dataPoints_eq (root : Node) : r.dataPoints root = r.pointsOf (r.entered root) := by
  rw [dataPoints, entered]
  split
  · rfl
  · rw [Frame.start, run_pending r _ _ _ _ (fun c _ => r.finishes c) 0, run_nil_nil, Nat.zero_add,
      pointsOf_reached, total_eq, List.append_nil, List.reverse_append, List.reverse_reverse,
      reverse_toList]

/-! ## Which targets are reported -/

/-- The places of the data points of a tree, in the same order. -/
def reportedPlaces (root : Node) : List Place :=
  ((r.entered root).filter fun x => (r.point? x.2 (r.total x.2)).isSome).map (·.1)

theorem forall₂_pointsOf (found : List (Place × Node)) :
    List.Forall₂ (fun x d => r.point? x.2 (r.total x.2) = some d)
      (found.filter fun x => (r.point? x.2 (r.total x.2)).isSome) (r.pointsOf found) := by
  induction found with
  | nil => exact .nil
  | cons x found ih =>
    rw [pointsOf, List.filterMap_cons, List.filter_cons]
    rcases hd : r.point? x.2 (r.total x.2) with _ | d
    · exact ih
    · exact .cons hd ih

theorem forall₂_reportedPlaces (root : Node) :
    List.Forall₂ (fun p d => ∃ n, root.nodeAt? p = some n ∧ r.point? n (r.total n) = some d)
      (r.reportedPlaces root) (r.dataPoints root) := by
  have hat : ∀ x ∈ (r.entered root).filter fun x => (r.point? x.2 (r.total x.2)).isSome,
      root.nodeAt? x.1 = some x.2 := fun x hx =>
    (r.mem_entered.1 (List.mem_filter.1 hx).1).1
  rw [dataPoints_eq, reportedPlaces, List.forall₂_map_left_iff]
  refine List.Forall₂.imp (fun x d hx => ⟨x.2, hx⟩) ?_
  exact (List.forall₂_and_left _ _).2 ⟨hat, r.forall₂_pointsOf _⟩

theorem mem_reportedPlaces {root : Node} {p : Place} :
    p ∈ r.reportedPlaces root ↔
      ∃ n, (p, n) ∈ r.entered root ∧ (r.point? n (r.total n)).isSome := by
  simp [reportedPlaces]

theorem isSome_point? {n : Node} (hk : n.kind = r.target) (score : Nat) :
    (r.point? n score).isSome ↔ r.minimum < Float.ofNat score := by
  rw [point?]
  split
  · rename_i h
    simpa using h.2
  · rename_i h
    simpa using fun hlt => h ⟨hk, hlt⟩

theorem countsWhole_of_target {n : Node} (hk : n.kind = r.target) : ¬r.countsWhole n := by
  rw [countsWhole]
  split
  · simp [hk]
  · simp

theorem mem_reportedPlaces_of_target {root n : Node} {p : Place} (hn : root.nodeAt? p = some n)
    (hk : n.kind = r.target) :
    p ∈ r.reportedPlaces root ↔
      root.NoneAbove (r.countsWhole ·) p ∧ r.minimum < Float.ofNat (r.total n) := by
  rw [mem_reportedPlaces]
  constructor
  · rintro ⟨m, hm, hd⟩
    obtain ⟨hat, habove, -⟩ := r.mem_entered.1 hm
    obtain rfl : n = m := Option.some.inj (hn.symm.trans hat)
    exact ⟨habove, (r.isSome_point? hk _).1 hd⟩
  · rintro ⟨habove, hlt⟩
    exact ⟨n, r.mem_entered.2 ⟨hn, habove, r.countsWhole_of_target hk⟩,
      (r.isSome_point? hk _).2 hlt⟩

/-- The data points of a tree stand at places of their own, and a target of the tree is reported
exactly if no node above it counts as a whole and it is reported when it is the root itself, which
it is exactly if its own total is above the minimum. -/
theorem target_reported_iff (r : NodeCountRule) (root : Node) :
    (r.reportedPlaces root).Nodup ∧
    List.Forall₂ (fun p d => ∃ n, root.nodeAt? p = some n ∧ r.point? n (r.total n) = some d)
      (r.reportedPlaces root) (r.dataPoints root) ∧
    ∀ p n, root.nodeAt? p = some n → n.kind = r.target →
      (p ∈ r.reportedPlaces root ↔
        root.NoneAbove (r.countsWhole ·) p ∧ [] ∈ r.reportedPlaces n) ∧
      ([] ∈ r.reportedPlaces n ↔ r.minimum < Float.ofNat (r.total n)) := by
  refine ⟨?_, r.forall₂_reportedPlaces root, fun p n hn hk => ?_⟩
  · have h := r.nodup_entered root
    rw [reportedPlaces]
    exact h.sublist (List.filter_sublist.map _)
  · have hself := r.mem_reportedPlaces_of_target (Node.nodeAt?_nil n) hk
    rw [and_iff_right Node.noneAbove_nil] at hself
    exact ⟨by rw [r.mem_reportedPlaces_of_target hn hk, hself], hself⟩

end NodeCountRule

namespace Design

/-- A type of three operations. -/
def localType : Node :=
  .mk ⟨.typeDeclaration, "class_declaration", ⟨2, 5⟩, some "Inner", none⟩
    (List.replicate 3 (.leaf ⟨.operationDeclaration, "method_declaration", ⟨3, 3⟩, none, none⟩))

/-- A type of two operations, with a type of three between them. -/
def nestingType : Node :=
  let op : Node := .leaf ⟨.operationDeclaration, "method_declaration", ⟨1, 1⟩, none, none⟩
  .mk ⟨.typeDeclaration, "class_declaration", ⟨1, 9⟩, some "Outer", none⟩ [op, localType, op]

/-- The type of three declared in an operation of another. -/
def localTypeFile : Node :=
  .mk ⟨.compilationUnit, "program", ⟨1, 6⟩, none, none⟩
    [.mk ⟨.typeDeclaration, "class_declaration", ⟨1, 6⟩, some "Outer", none⟩
      [.mk ⟨.operationDeclaration, "method_declaration", ⟨1, 6⟩, none, none⟩ [localType]]]

/-- A type in the body of another is reported, as the one around it does not count as a whole. -/
theorem localType_reported_in_type :
    nestingType.nodeAt? [1] = some localType ∧ localType.kind = excessiveMethodCount.target ∧
      [1] ∈ excessiveMethodCount.reportedPlaces nestingType ∧
      [] ∈ excessiveMethodCount.reportedPlaces localType := by
  obtain ⟨-, -, htargets⟩ := NodeCountRule.target_reported_iff excessiveMethodCount nestingType
  obtain ⟨hnested, hroot⟩ := htargets [1] localType rfl rfl
  have habove : nestingType.NoneAbove (excessiveMethodCount.countsWhole ·) [1] :=
    Node.noneAbove_cons.2 ⟨by decide, fun _ _ => Node.noneAbove_nil⟩
  have hreported := hroot.2 (by decide)
  exact ⟨rfl, rfl, hnested.2 ⟨habove, hreported⟩, hreported⟩

/-- A type above the minimum is not reported if it stands in an operation. -/
theorem localType_not_reported :
    localTypeFile.nodeAt? [0, 0, 0] = some localType ∧
      localType.kind = excessiveMethodCount.target ∧
      (excessiveMethodCount.dataPoints localType).map (fun d => (d.node, d.score)) =
        [(localType, 3)] ∧
      excessiveMethodCount.dataPoints localTypeFile = [] := by
  refine ⟨rfl, rfl, ?_, ?_⟩
  · rw [NodeCountRule.dataPoints_eq]
    rfl
  · rw [NodeCountRule.dataPoints_eq]
    rfl

end Design

end CodeGauge

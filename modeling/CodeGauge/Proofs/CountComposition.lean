import Mathlib.Algebra.BigOperators.Ring.Finset
import Mathlib.Data.List.Infix
import CodeGauge.Metric.Catalog
import CodeGauge.Proofs.EachListed

/-!
# Counts of a tree from its parts

Every operation below a node has one nearest type, so the operations of nested types included are
those of the node and of each type below it (`operationCount_true`). A complexity counts what no
nested type encloses: its decisions are the branches and the boolean operators in such places
(`complexity_true`, `complexity_false`). Statements are counted behind types as well, so their
number is that of the children, each with itself if it is one (`statementCount_eq`).
-/

namespace CodeGauge

namespace Node

instance (n : Node) (kind : Kind) (p : Place) : Decidable (n.HasKindAt kind p) :=
  inferInstanceAs (Decidable (_ = _))

instance (n : Node) (t p : Place) : Decidable (n.Encloses t p) :=
  inferInstanceAs (Decidable (_ ∧ _))

/-- Whether a type below the node encloses a place can be told from the ways to it. -/
instance (n : Node) (p : Place) : Decidable (∀ t, ¬n.Encloses t p) :=
  decidable_of_iff (∀ t ∈ p.inits, ¬n.Encloses t p)
    ⟨fun h t ht => h t ((List.mem_inits t p).2 ht.2.1) ht, fun h t _ => h t⟩

/-- The places of a kind below a node that no type below the node encloses. -/
def placesOutsideTypes (n : Node) (kind : Kind) : List Place :=
  (n.placesOf kind).filter fun p => ∀ t, ¬n.Encloses t p

variable (n : Node)

/-! ## Operations -/

/-- The operations below a node are its own and those of every type below it. -/
theorem operationCount_true :
    n.operationCount true =
      ((n :: n.descendantsOfKind .typeDeclaration).map (·.operationCount false)).sum := by
  have hperm := n.perm_operations.length_eq
  rw [List.length_append, List.length_flatMap] at hperm
  simp only [operationCount, if_true, Bool.false_eq_true, if_false, List.map_cons, List.sum_cons]
  omega

/-! ## Decisions -/

theorem perm_placesOutsideTypes (kind : Kind) :
    (n.placesOutsideTypes kind).Perm
      ((ofKind kind (n.locatedBelow (some .typeDeclaration))).map (·.1)) := by
  have hnodup : ((ofKind kind (n.locatedBelow (some .typeDeclaration))).map (·.1)).Nodup := by
    have h := pairwise_locatedBelow (some .typeDeclaration) n
    refine List.Pairwise.imp ?_ (h.sublist (List.filter_sublist.map _))
    rintro p q hpq rfl
    exact List.lt_irrefl p hpq
  refine (List.perm_ext_iff_of_nodup ((nodup_placesOf kind).filter _) hnodup).2 fun p => ?_
  rw [List.mem_filter, mem_placesOf, mem_ofKind_locatedBelow, decide_eq_true_eq]
  constructor
  · rintro ⟨⟨hne, hk⟩, hnone⟩
    exact ⟨hne, hk, fun t ht hpre htp htype => hnone t ⟨ht, hpre, htp, htype⟩⟩
  · rintro ⟨hne, hk, hnone⟩
    exact ⟨⟨hne, hk⟩, fun t ⟨ht, hpre, htp, htype⟩ => hnone t ht hpre htp htype⟩

/-- A walk that does not enter types meets a kind where no type encloses it. -/
theorem countP_descendantsWithin (kind : Kind) :
    (n.descendantsWithin .typeDeclaration).countP (·.kind = kind) =
      (n.placesOutsideTypes kind).length := by
  rw [(n.perm_placesOutsideTypes kind).length_eq, List.length_map, descendantsWithin,
    ← map_snd_locatedBelow, List.countP_map, List.countP_eq_length_filter]
  rfl

/-- A decision is a branch, or a boolean operator if these are counted, and never both. -/
theorem countP_isDecision (ns : List Node) :
    ns.countP (isDecision true) =
        ns.countP (·.kind = .branch) + ns.countP (·.kind = .booleanOperator) ∧
      ns.countP (isDecision false) = ns.countP (·.kind = .branch) := by
  induction ns with
  | nil => exact ⟨rfl, rfl⟩
  | cons m ns ih =>
    obtain ⟨htrue, hfalse⟩ := ih
    simp only [List.countP_cons, isDecision, Bool.true_and, Bool.false_and, Bool.or_false,
      htrue, hfalse]
    rcases hk : m.kind <;> simp <;> omega

theorem complexity_false :
    n.complexity false = 1 + (n.placesOutsideTypes .branch).length := by
  rw [complexity, (countP_isDecision _).2, countP_descendantsWithin, Nat.add_comm]

theorem complexity_true :
    n.complexity true = n.complexity false + (n.placesOutsideTypes .booleanOperator).length := by
  rw [complexity_false, complexity, (countP_isDecision _).1, countP_descendantsWithin,
    countP_descendantsWithin]
  omega

/-! ## Statements -/

theorem countP_preorders_none (p : Node → Bool) (ns : List Node) :
    (preorders none ns).countP p =
      (ns.map fun c => c.descendants.countP p + if p c then 1 else 0).sum := by
  induction ns with
  | nil => rfl
  | cons c ns ih =>
    rw [preorders, preorder_eq, entered_none, ← descendants_eq, List.countP_append,
      List.countP_cons, ih, List.map_cons, List.sum_cons]

theorem statementCount_eq :
    n.statementCount = 1 +
      (n.children.map fun c => c.statementCount - 1 + if c.isStatement then 1 else 0).sum := by
  rw [statementCount, descendants_eq, countP_preorders_none, Nat.add_comm]
  rfl

end Node

/-- The values of the counting metrics on any node are the values of counts that add up: operations
over the node and the types below it, boolean operators and branches over the places that no type
encloses, statements over the children. -/
theorem counts_compose (n : Node) :
    (∀ options, (Metric.typeOperations : Metric Id).compute n options =
        pure (Float.ofNat (n.operationCount (options.contains Metric.countNested)))) ∧
    n.operationCount true =
      ((n :: n.descendantsOfKind .typeDeclaration).map (·.operationCount false)).sum ∧
    (∀ options, (Metric.operationComplexity : Metric Id).compute n options =
        pure (Float.ofNat (n.complexity !options.contains Metric.ignoreBooleanPaths))) ∧
    (n.complexity true : ℤ) - n.complexity false =
      (n.placesOutsideTypes .booleanOperator).length ∧
    n.complexity false = 1 + (n.placesOutsideTypes .branch).length ∧
    (∀ options, (Metric.typeStatements : Metric Id).compute n options =
          pure (Float.ofNat n.statementCount) ∧
        (Metric.operationStatements : Metric Id).compute n options =
          pure (Float.ofNat n.statementCount)) ∧
    (n.statementCount : ℤ) - 1 =
      (n.children.map fun c =>
        (c.statementCount : ℤ) - 1 + if c.isStatement then 1 else 0).sum := by
  have hcomplexity := n.complexity_true
  have hchild (c : Node) :
      ((c.statementCount - 1 + if c.isStatement then 1 else 0 : ℕ) : ℤ) =
        (c.statementCount : ℤ) - 1 + if c.isStatement then 1 else 0 := by
    have : 0 < c.statementCount := Nat.succ_pos _
    split <;> omega
  refine ⟨fun _ => rfl, n.operationCount_true, fun _ => rfl, by omega, n.complexity_false,
    fun _ => ⟨rfl, rfl⟩, ?_⟩
  rw [n.statementCount_eq, Nat.cast_add, Nat.cast_one, add_sub_cancel_left, Nat.cast_list_sum,
    List.map_map]
  exact congrArg List.sum (List.map_congr_left fun c _ => hchild c)

end CodeGauge

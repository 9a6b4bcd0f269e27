import Mathlib.Data.List.Perm.Basic
import CodeGauge.Proofs.Preorder

/-!
# Places in a tree

Equal nodes may stand in many places of a tree, so a statement about each node once is a statement
about places. `located` is the pre-order of a tree with the place of every node in it. It lists the
places in ascending order (`pairwise_located`), and exactly those that no barrier stands above
(`mem_located`).

A walk that stops at types finds the operations of the type it starts at. Such walks from the top
and from every type below find each operation once between them (`splits_locatedBelow`).
-/

namespace CodeGauge

/-- Where a node stands under another: the number of the child to go to, step by step. -/
abbrev Place := List Nat

namespace Node

/-- Induction over a tree: what holds of a node if it holds of its children holds of every node. -/
@[elab_as_elim]
theorem children_induction {motive : Node → Prop}
    (mk : ∀ head children, (∀ c ∈ children, motive c) → motive (.mk head children)) (n : Node) :
    motive n := by
  obtain ⟨head, children⟩ := n
  exact mk head children fun c hc => children_induction mk c
termination_by sizeOf n
decreasing_by
  have := List.sizeOf_lt_of_mem hc
  simp only [Node.mk.sizeOf_spec]
  omega

/-- The node at a place. -/
def nodeAt? : Node → Place → Option Node
  | n, [] => some n
  | n, i :: p => n.children[i]?.bind (·.nodeAt? p)

@[simp] theorem nodeAt?_nil (n : Node) : n.nodeAt? [] = some n := rfl

theorem nodeAt?_cons_eq_some {n m : Node} {i : Nat} {p : Place} :
    n.nodeAt? (i :: p) = some m ↔ ∃ c, n.children[i]? = some c ∧ c.nodeAt? p = some m := by
  rw [nodeAt?, Option.bind_eq_some_iff]

theorem nodeAt?_append (n : Node) (p q : Place) :
    n.nodeAt? (p ++ q) = (n.nodeAt? p).bind (·.nodeAt? q) := by
  induction p generalizing n with
  | nil => rfl
  | cons i p ih =>
    rw [List.cons_append, nodeAt?, nodeAt?]
    rcases n.children[i]? with _ | c
    · rfl
    · exact ih c

/-- Whether none of the nodes passed on the way to a place is of some sort: neither the node the
way starts at nor any above the place. -/
def NoneAbove (sort : Node → Prop) (n : Node) (p : Place) : Prop :=
  ∀ q m, q <+: p → q ≠ p → n.nodeAt? q = some m → ¬sort m

section Above

variable {sort : Node → Prop} {n : Node}

theorem noneAbove_nil : n.NoneAbove sort [] :=
  fun _ _ hq hne => absurd (List.prefix_nil.1 hq) hne

theorem noneAbove_cons {i : Nat} {p : Place} :
    n.NoneAbove sort (i :: p) ↔
      ¬sort n ∧ ∀ c, n.children[i]? = some c → c.NoneAbove sort p := by
  constructor
  · intro h
    refine ⟨h [] n List.nil_prefix (by simp) rfl, fun c hc q m hq hne hm => ?_⟩
    exact h (i :: q) m (List.cons_prefix_cons.2 ⟨rfl, hq⟩) (by simpa using hne)
      (nodeAt?_cons_eq_some.2 ⟨c, hc, hm⟩)
  · rintro ⟨hn, h⟩ q m hq hne hm
    rcases q with _ | ⟨j, q⟩
    · obtain rfl : n = m := by simpa using hm
      exact hn
    · obtain ⟨rfl, hq'⟩ := List.cons_prefix_cons.1 hq
      obtain ⟨c, hc, hm⟩ := nodeAt?_cons_eq_some.1 hm
      exact h c hc q m hq' (by simpa using hne) hm

/-- A listing that has a node itself if the node is fit, and all that it has of the children unless
the node is of the sort, has the fit nodes with no node of the sort above them. -/
theorem mem_iff_noneAbove {f : Node → List (Place × Node)} {fit : Node → Prop}
    (hnil : ∀ n m, ([], m) ∈ f n ↔ n = m ∧ fit m)
    (hcons : ∀ n m i p, (i :: p, m) ∈ f n ↔
      ¬sort n ∧ ∃ c, n.children[i]? = some c ∧ (p, m) ∈ f c)
    {n m : Node} {p : Place} :
    (p, m) ∈ f n ↔ n.nodeAt? p = some m ∧ n.NoneAbove sort p ∧ fit m := by
  induction p generalizing n with
  | nil => rw [hnil, nodeAt?_nil, Option.some.injEq, and_iff_right noneAbove_nil]
  | cons i p ih =>
    rw [hcons, noneAbove_cons, nodeAt?_cons_eq_some]
    constructor
    · rintro ⟨hn, c, hc, h⟩
      obtain ⟨hat, habove, hm⟩ := ih.1 h
      refine ⟨⟨c, hc, hat⟩, ⟨hn, fun c' hc' => ?_⟩, hm⟩
      obtain rfl : c = c' := Option.some.inj (hc.symm.trans hc')
      exact habove
    · rintro ⟨⟨c, hc, hat⟩, ⟨hn, habove⟩, hm⟩
      exact ⟨hn, c, hc, ih.2 ⟨hat, habove c hc, hm⟩⟩

end Above

/-! ## Collecting from the children of a node -/

section Gather

variable {α : Type}

/-- What is found in each of several trees, with its place when the first of them is child number
`i` of one node and the others follow it. -/
def gather (f : Node → List (Place × α)) (i : Nat) : List Node → List (Place × α)
  | [] => []
  | n :: ns => (f n).map (Prod.map (i :: ·) id) ++ gather f (i + 1) ns

variable {f : Node → List (Place × α)}

theorem gather_congr {g : Node → List (Place × α)} {i : Nat} {ns : List Node}
    (h : ∀ n ∈ ns, f n = g n) : gather f i ns = gather g i ns := by
  induction ns generalizing i with
  | nil => rfl
  | cons n ns ih =>
    rw [gather, gather, h n List.mem_cons_self, ih fun m hm => h m (List.mem_cons_of_mem _ hm)]

theorem mem_gather {i : Nat} {ns : List Node} {p : Place} {a : α} :
    (p, a) ∈ gather f i ns ↔ ∃ j c q, p = (i + j) :: q ∧ ns[j]? = some c ∧ (q, a) ∈ f c := by
  induction ns generalizing i with
  | nil => simp [gather]
  | cons n ns ih =>
    rw [gather, List.mem_append, ih, List.mem_map]
    constructor
    · rintro (⟨⟨q, b⟩, hq, he⟩ | ⟨j, c, q, rfl, hc, hq⟩)
      · obtain ⟨rfl, rfl⟩ := Prod.mk.inj he
        exact ⟨0, n, q, rfl, rfl, hq⟩
      · exact ⟨j + 1, c, q, by rw [Nat.add_right_comm, Nat.add_assoc], hc, hq⟩
    · rintro ⟨_ | j, c, q, rfl, hc, hq⟩
      · obtain rfl : n = c := by simpa using hc
        exact .inl ⟨(q, a), hq, rfl⟩
      · exact .inr ⟨j, c, q, by rw [Nat.add_right_comm, Nat.add_assoc], by simpa using hc, hq⟩

theorem nil_notMem_gather {i : Nat} {ns : List Node} {a : α} : ([], a) ∉ gather f i ns := by
  rw [mem_gather]
  rintro ⟨j, c, q, he, -⟩
  exact absurd he (by simp)

theorem cons_mem_gather {n : Node} {i : Nat} {q : Place} {a : α} :
    (i :: q, a) ∈ gather f 0 n.children ↔ ∃ c, n.children[i]? = some c ∧ (q, a) ∈ f c := by
  rw [mem_gather]
  constructor
  · rintro ⟨j, c, q', he, hc, hq⟩
    obtain ⟨rfl, rfl⟩ := List.cons.inj he
    exact ⟨c, by simpa using hc, hq⟩
  · rintro ⟨c, hc, hq⟩
    exact ⟨i, c, q, by rw [Nat.zero_add], hc, hq⟩

theorem map_snd_gather (i : Nat) (ns : List Node) :
    (gather f i ns).map (·.2) = ns.flatMap fun n => (f n).map (·.2) := by
  induction ns generalizing i with
  | nil => rfl
  | cons n ns ih =>
    rw [gather, List.map_append, ih, List.flatMap_cons, List.map_map]
    rfl

/-- A relation that compares places by the first step in which they part holds along all that is
gathered if it does within each tree. -/
theorem pairwise_gather {R : Place → Place → Prop} (hcons : ∀ i p q, R p q → R (i :: p) (i :: q))
    (hlt : ∀ i j p q, i < j → R (i :: p) (j :: q)) :
    ∀ (i : Nat) (ns : List Node), (∀ n ∈ ns, ((f n).map (·.1)).Pairwise R) →
      ((gather f i ns).map (·.1)).Pairwise R
  | _, [], _ => .nil
  | i, n :: ns, h => by
    have hfirst := h n List.mem_cons_self
    have hrest := pairwise_gather hcons hlt (i + 1) ns fun m hm => h m (List.mem_cons_of_mem _ hm)
    rw [List.pairwise_map] at hfirst hrest ⊢
    rw [gather, List.pairwise_append, List.pairwise_map]
    refine ⟨hfirst.imp fun hab => hcons i _ _ hab, hrest, ?_⟩
    rintro x hx ⟨q, b⟩ hq
    obtain ⟨y, -, rfl⟩ := List.mem_map.1 hx
    obtain ⟨j, c, q', rfl, -, -⟩ := mem_gather.1 hq
    exact hlt _ _ _ _ (by omega)

end Gather

/-! ## The pre-order of places -/

section Located

mutual

/-- The nodes that `preorder` lists, each with its place. -/
def located (barrier : Option Kind) : Node → List (Place × Node)
  | mk head children =>
    ([], mk head children) ::
      if barrier = some head.kind then [] else locatedFrom barrier 0 children

/-- The nodes of several trees, which are the children of one node from number `i` on. -/
def locatedFrom (barrier : Option Kind) (i : Nat) : List Node → List (Place × Node)
  | [] => []
  | n :: ns => (n.located barrier).map (Prod.map (i :: ·) id) ++ locatedFrom barrier (i + 1) ns

end

variable (barrier : Option Kind)

theorem locatedFrom_eq (i : Nat) (ns : List Node) :
    locatedFrom barrier i ns = gather (located barrier) i ns := by
  induction ns generalizing i with
  | nil => rw [locatedFrom, gather]
  | cons n ns ih => rw [locatedFrom, gather, ih]

/-- The nodes below a node up to a barrier, each with its place. -/
def locatedBelow (n : Node) : List (Place × Node) := gather (located barrier) 0 n.children

theorem located_eq (n : Node) :
    n.located barrier =
      ([], n) :: if barrier = some n.kind then [] else n.locatedBelow barrier := by
  obtain ⟨head, children⟩ := n
  rw [located, locatedFrom_eq]
  rfl

theorem preorders_eq_flatMap (ns : List Node) :
    preorders barrier ns = ns.flatMap (preorder barrier) := by
  induction ns with
  | nil => rw [preorders, List.flatMap_nil]
  | cons n ns ih => rw [preorders, List.flatMap_cons, ih]

theorem map_snd_located (n : Node) : (n.located barrier).map (·.2) = n.preorder barrier := by
  induction n using children_induction with
  | mk head children ih =>
    rw [located_eq, preorder_eq, List.map_cons, entered]
    split
    · rw [preorders, List.map_nil]
    · rw [locatedBelow, map_snd_gather, preorders_eq_flatMap]
      exact congrArg _ (List.flatMap_congr ih)

theorem map_snd_locatedBelow (n : Node) :
    (n.locatedBelow barrier).map (·.2) = n.nodesBelow barrier := by
  rw [locatedBelow, map_snd_gather, nodesBelow_eq, preorders_eq_flatMap]
  exact List.flatMap_congr fun c _ => map_snd_located barrier c

theorem pairwise_gather_lt {α : Type} {f : Node → List (Place × α)} {ns : List Node}
    (h : ∀ n ∈ ns, ((f n).map (·.1)).Pairwise (· < ·)) :
    ((gather f 0 ns).map (·.1)).Pairwise (· < ·) :=
  pairwise_gather (fun _ _ _ hpq => List.cons_lt_cons_iff.2 (.inr ⟨rfl, hpq⟩))
    (fun _ _ _ _ hij => List.cons_lt_cons_iff.2 (.inl hij)) 0 ns h

/-- The pre-order ascends: a node stands before those below it, and these before its next
sibling. -/
theorem pairwise_located (n : Node) : ((n.located barrier).map (·.1)).Pairwise (· < ·) := by
  induction n using children_induction with
  | mk head children ih =>
    rw [located_eq, List.map_cons, List.pairwise_cons]
    split
    · exact ⟨by simp, .nil⟩
    · refine ⟨fun p hp => ?_, pairwise_gather_lt ih⟩
      obtain ⟨⟨q, m⟩, hq, rfl⟩ := List.mem_map.1 hp
      obtain ⟨j, c, q, rfl, -, -⟩ := mem_gather.1 hq
      exact List.nil_lt_cons _ q

theorem pairwise_locatedBelow (n : Node) :
    ((n.locatedBelow barrier).map (·.1)).Pairwise (· < ·) :=
  pairwise_gather_lt fun c _ => pairwise_located barrier c

variable {barrier}

/-- The pre-order lists the node at each place that no barrier stands above. -/
theorem mem_located {n m : Node} {p : Place} :
    (p, m) ∈ n.located barrier ↔
      n.nodeAt? p = some m ∧ n.NoneAbove (barrier = some ·.kind) p := by
  have hnil (n m : Node) : ([], m) ∈ n.located barrier ↔ n = m ∧ True := by
    have hbelow : ([], m) ∉ if barrier = some n.kind then [] else n.locatedBelow barrier := by
      split
      · exact List.not_mem_nil
      · exact nil_notMem_gather
    rw [located_eq, List.mem_cons, or_iff_left hbelow]
    simp [eq_comm]
  have hcons (n m : Node) (i : Nat) (p : Place) : (i :: p, m) ∈ n.located barrier ↔
      ¬barrier = some n.kind ∧ ∃ c, n.children[i]? = some c ∧ (p, m) ∈ c.located barrier := by
    have hhead : (i :: p, m) ≠ ([], n) := by simp
    rw [located_eq, List.mem_cons, or_iff_right hhead]
    split
    · rename_i hb
      exact ⟨fun h => absurd h List.not_mem_nil, fun h => absurd hb h.1⟩
    · rename_i hb
      rw [locatedBelow, cons_mem_gather, and_iff_right hb]
  rw [mem_iff_noneAbove hnil hcons, and_true]

/-- Below a node, the kind of the node itself bars nothing. -/
theorem mem_locatedBelow {n m : Node} {p : Place} :
    (p, m) ∈ n.locatedBelow barrier ↔
      p ≠ [] ∧ n.nodeAt? p = some m ∧
        ∀ q k, q ≠ [] → q <+: p → q ≠ p → n.nodeAt? q = some k → barrier ≠ some k.kind := by
  rcases p with _ | ⟨i, p⟩
  · exact ⟨fun h => absurd h nil_notMem_gather, fun h => absurd rfl h.1⟩
  · rw [locatedBelow, cons_mem_gather, nodeAt?_cons_eq_some]
    constructor
    · rintro ⟨c, hc, h⟩
      obtain ⟨hm, habove⟩ := mem_located.1 h
      refine ⟨by simp, ⟨c, hc, hm⟩, fun q k hq hpre hne hk => ?_⟩
      obtain ⟨j, q, rfl⟩ := List.exists_cons_of_ne_nil hq
      obtain ⟨rfl, hpre'⟩ := List.cons_prefix_cons.1 hpre
      obtain ⟨c', hc', hk⟩ := nodeAt?_cons_eq_some.1 hk
      obtain rfl : c = c' := Option.some.inj (hc.symm.trans hc')
      exact habove q k hpre' (by simpa using hne) hk
    · rintro ⟨-, ⟨c, hc, hm⟩, habove⟩
      refine ⟨c, hc, mem_located.2 ⟨hm, fun q k hpre hne hk => ?_⟩⟩
      exact habove (i :: q) k (by simp) (List.cons_prefix_cons.2 ⟨rfl, hpre⟩) (by simpa using hne)
        (nodeAt?_cons_eq_some.2 ⟨c, hc, hk⟩)

end Located

/-! ## Kinds at places -/

section Kinds

/-- Whether there is a node of the kind at a place. -/
def HasKindAt (n : Node) (kind : Kind) (p : Place) : Prop :=
  (n.nodeAt? p).map (·.kind) = some kind

/-- The located nodes of a kind. -/
def ofKind (kind : Kind) (found : List (Place × Node)) : List (Place × Node) :=
  found.filter (·.2.kind = kind)

variable {n : Node}

theorem hasKindAt_iff {kind : Kind} {p : Place} :
    n.HasKindAt kind p ↔ ∃ m, n.nodeAt? p = some m ∧ m.kind = kind :=
  Option.map_eq_some_iff

theorem hasKindAt_append {t q : Place} {m : Node} (ht : n.nodeAt? t = some m) (kind : Kind) :
    n.HasKindAt kind (t ++ q) ↔ m.HasKindAt kind q := by
  rw [HasKindAt, HasKindAt, nodeAt?_append, ht, Option.bind_some]

theorem mem_map_fst_ofKind {kind : Kind} {found : List (Place × Node)} {p : Place} :
    p ∈ (ofKind kind found).map (·.1) ↔ ∃ m, (p, m) ∈ found ∧ m.kind = kind := by
  simp [ofKind]

/-- Below a node, up to a barrier, the places of a kind are those with no barrier between. -/
theorem mem_ofKind_locatedBelow {kind barrier : Kind} {p : Place} :
    p ∈ (ofKind kind (n.locatedBelow (some barrier))).map (·.1) ↔
      p ≠ [] ∧ n.HasKindAt kind p ∧
        ∀ q, q ≠ [] → q <+: p → q ≠ p → ¬n.HasKindAt barrier q := by
  rw [mem_map_fst_ofKind, hasKindAt_iff]
  constructor
  · rintro ⟨m, hm, hk⟩
    obtain ⟨hne, hm, habove⟩ := mem_locatedBelow.1 hm
    refine ⟨hne, ⟨m, hm, hk⟩, fun q hq hpre hqp hb => ?_⟩
    obtain ⟨c, hc, hck⟩ := hasKindAt_iff.1 hb
    exact habove q c hq hpre hqp hc (by rw [hck])
  · rintro ⟨hne, ⟨m, hm, hk⟩, habove⟩
    refine ⟨m, mem_locatedBelow.2 ⟨hne, hm, fun q c hq hpre hqp hc hb => ?_⟩, hk⟩
    exact habove q hq hpre hqp (hasKindAt_iff.2 ⟨c, hc, (Option.some.inj hb).symm⟩)

end Kinds

/-! ## Operations and the types they stand in -/

section Operations

/-- The operations of a node that stands in a place, each with the place where it stands then. -/
def operationsAt (t : Place × Node) : List (Place × Node) :=
  (ofKind .operationDeclaration (t.2.locatedBelow (some .typeDeclaration))).map
    (Prod.map (t.1 ++ ·) id)

theorem ofKind_append (kind : Kind) (xs ys : List (Place × Node)) :
    ofKind kind (xs ++ ys) = ofKind kind xs ++ ofKind kind ys :=
  List.filter_append xs ys

theorem ofKind_map (kind : Kind) (f : Place → Place) (xs : List (Place × Node)) :
    ofKind kind (xs.map (Prod.map f id)) = (ofKind kind xs).map (Prod.map f id) := by
  rw [ofKind, List.filter_map]
  rfl

theorem ofKind_cons_of_eq {kind : Kind} {t : Place × Node} (h : t.2.kind = kind)
    (xs : List (Place × Node)) : ofKind kind (t :: xs) = t :: ofKind kind xs :=
  List.filter_cons_of_pos (by simpa using h)

theorem ofKind_cons_of_ne {kind : Kind} {t : Place × Node} (h : t.2.kind ≠ kind)
    (xs : List (Place × Node)) : ofKind kind (t :: xs) = ofKind kind xs :=
  List.filter_cons_of_neg (by simpa using h)

theorem map_snd_ofKind (kind : Kind) (xs : List (Place × Node)) :
    (ofKind kind xs).map (·.2) = (xs.map (·.2)).filter (·.kind = kind) := by
  rw [List.filter_map]
  rfl

theorem operationsAt_cons (i : Nat) (t : Place × Node) :
    operationsAt (Prod.map (i :: ·) id t) = (operationsAt t).map (Prod.map (i :: ·) id) := by
  rw [operationsAt, operationsAt, List.map_map]
  rfl

theorem map_snd_operationsAt (t : Place × Node) :
    (operationsAt t).map (·.2) = t.2.declaredOperations := by
  rw [declaredOperations, descendantsWithin, ← map_snd_locatedBelow, ← map_snd_ofKind,
    operationsAt, List.map_map]
  rfl

/-- The operations of the types among some located nodes. -/
def typeOperations (found : List (Place × Node)) : List (Place × Node) :=
  (ofKind .typeDeclaration found).flatMap operationsAt

theorem typeOperations_cons_of_ne {t : Place × Node} (h : t.2.kind ≠ .typeDeclaration)
    (xs : List (Place × Node)) : typeOperations (t :: xs) = typeOperations xs := by
  rw [typeOperations, ofKind_cons_of_ne h]
  rfl

theorem typeOperations_append (xs ys : List (Place × Node)) :
    typeOperations (xs ++ ys) = typeOperations xs ++ typeOperations ys := by
  rw [typeOperations, ofKind_append, List.flatMap_append]
  rfl

theorem typeOperations_map (i : Nat) (xs : List (Place × Node)) :
    typeOperations (xs.map (Prod.map (i :: ·) id)) =
      (typeOperations xs).map (Prod.map (i :: ·) id) := by
  rw [typeOperations, ofKind_map, List.flatMap_map, typeOperations, List.map_flatMap]
  exact List.flatMap_congr fun t _ => operationsAt_cons i t

/-- Whether the operations among `all` are, each once, those of the types among `all` and those
among `top`. -/
def Splits (all top : List (Place × Node)) : Prop :=
  (ofKind .operationDeclaration all).Perm
    (typeOperations all ++ ofKind .operationDeclaration top)

namespace Splits

variable {all top all' top' : List (Place × Node)}

theorem map (h : Splits all top) (i : Nat) :
    Splits (all.map (Prod.map (i :: ·) id)) (top.map (Prod.map (i :: ·) id)) := by
  unfold Splits at h ⊢
  rw [ofKind_map, ofKind_map, typeOperations_map, ← List.map_append]
  exact h.map _

theorem append (h : Splits all top) (h' : Splits all' top') :
    Splits (all ++ all') (top ++ top') := by
  unfold Splits at h h' ⊢
  rw [ofKind_append, ofKind_append, typeOperations_append]
  refine (h.append h').trans ?_
  rw [List.append_assoc, List.append_assoc]
  refine .append_left _ ?_
  rw [← List.append_assoc, ← List.append_assoc]
  exact .append_right _ List.perm_append_comm

/-- What was found from the top is found from a type that is put around it. -/
theorem cons_type {n : Node} (hk : n.kind = .typeDeclaration)
    (h : Splits all (n.locatedBelow (some .typeDeclaration))) :
    Splits (([], n) :: all) [([], n)] := by
  have hop : n.kind ≠ .operationDeclaration := by simp [hk]
  have hself : operationsAt ([], n) =
      ofKind .operationDeclaration (n.locatedBelow (some .typeDeclaration)) := List.map_id _
  unfold Splits at h ⊢
  rw [ofKind_cons_of_ne hop, ofKind_cons_of_ne hop, typeOperations, ofKind_cons_of_eq hk,
    List.flatMap_cons, hself]
  refine (h.trans List.perm_append_comm).trans ?_
  exact .of_eq (List.append_nil _).symm

theorem cons_of_ne {t : Place × Node} (hk : t.2.kind ≠ .typeDeclaration) (h : Splits all top) :
    Splits (t :: all) (t :: top) := by
  unfold Splits at h ⊢
  rw [typeOperations_cons_of_ne hk]
  by_cases hop : t.2.kind = .operationDeclaration
  · rw [ofKind_cons_of_eq hop, ofKind_cons_of_eq hop]
    exact (h.cons t).trans List.perm_middle.symm
  · rwa [ofKind_cons_of_ne hop, ofKind_cons_of_ne hop]

theorem gather {f g : Node → List (Place × Node)} :
    ∀ (i : Nat) (ns : List Node), (∀ n ∈ ns, Splits (f n) (g n)) →
      Splits (Node.gather f i ns) (Node.gather g i ns)
  | _, [], _ => .refl _
  | i, n :: ns, h =>
    ((h n List.mem_cons_self).map i).append
      (gather (i + 1) ns fun m hm => h m (List.mem_cons_of_mem _ hm))

/-- The same of the nodes without their places. -/
theorem nodes (h : Splits all top) :
    ((all.map (·.2)).filter (·.kind = .operationDeclaration)).Perm
      (((all.map (·.2)).filter (·.kind = .typeDeclaration)).flatMap declaredOperations ++
        (top.map (·.2)).filter (·.kind = .operationDeclaration)) := by
  have htypes : (typeOperations all).map (·.2) =
      ((all.map (·.2)).filter (·.kind = .typeDeclaration)).flatMap declaredOperations := by
    rw [← map_snd_ofKind, List.flatMap_map, typeOperations, List.map_flatMap]
    exact List.flatMap_congr fun t _ => map_snd_operationsAt t
  rw [← htypes, ← map_snd_ofKind, ← map_snd_ofKind, ← List.map_append]
  exact List.Perm.map (·.2) h

end Splits

theorem splits_located (n : Node) :
    Splits (n.located none) (n.located (some .typeDeclaration)) := by
  induction n using children_induction with
  | mk head children ih =>
    have hbelow : Splits ((mk head children).locatedBelow none)
        ((mk head children).locatedBelow (some .typeDeclaration)) := .gather 0 children ih
    rw [located_eq, located_eq, if_neg (by simp)]
    by_cases hk : (mk head children).kind = .typeDeclaration
    · rw [if_pos (by rw [hk])]
      exact .cons_type hk hbelow
    · rw [if_neg (by simpa [eq_comm] using hk)]
      exact .cons_of_ne hk hbelow

/-- Below a node every operation is found once, from the nearest type above it or else from the
node. -/
theorem splits_locatedBelow (n : Node) :
    Splits (n.locatedBelow none) (n.locatedBelow (some .typeDeclaration)) :=
  .gather 0 n.children fun c _ => splits_located c

/-- The operations below a node are those of the types below it and its own. -/
theorem perm_operations (n : Node) :
    (n.descendantsOfKind .operationDeclaration).Perm
      ((n.descendantsOfKind .typeDeclaration).flatMap declaredOperations ++
        n.declaredOperations) := by
  have h := (splits_locatedBelow n).nodes
  rwa [map_snd_locatedBelow, map_snd_locatedBelow] at h

end Operations

end Node

end CodeGauge

import Mathlib.Data.List.Forall2
import CodeGauge.Report.Listing
import CodeGauge.Proofs.Place

/-!
# A listing has every declaration once

An entry of a listing says little of the node it was made from, and two nodes may have equal
entries. So a listing is compared with places: its entries correspond one to one to lists of places,
each entry describing the node at its place (`forall₂_collect`), and the rest is said of the places.
The types are those below the root, ascending. Every operation below the root stands once in the
lists of operations, in that of the nearest type above it or among the functions if no type below
the root is above it.
-/

namespace CodeGauge

namespace Node

variable (n : Node)

/-- The places of a kind below a node, in document order. -/
def placesOf (kind : Kind) : List Place := (ofKind kind (n.locatedBelow none)).map (·.1)

/-- The places of the operations that belong to the node at a place. -/
def operationPlaces (t : Place) : List Place :=
  match n.nodeAt? t with
  | some m => (operationsAt (t, m)).map (·.1)
  | none => []

/-- Whether there is a type at `t`, below the node itself and above `p`. -/
def Encloses (t p : Place) : Prop :=
  t ≠ [] ∧ t <+: p ∧ t ≠ p ∧ n.HasKindAt .typeDeclaration t

/-- Whether the type at `t` is the last of those above `p`. -/
def Nearest (t p : Place) : Prop := n.Encloses t p ∧ ∀ t', n.Encloses t' p → t' <+: t

variable {n}

theorem mem_placesOf {kind : Kind} {p : Place} :
    p ∈ n.placesOf kind ↔ p ≠ [] ∧ n.HasKindAt kind p := by
  rw [placesOf, mem_map_fst_ofKind, hasKindAt_iff]
  constructor
  · rintro ⟨m, hm, hk⟩
    obtain ⟨hne, hm, -⟩ := mem_locatedBelow.1 hm
    exact ⟨hne, m, hm, hk⟩
  · rintro ⟨hne, m, hm, hk⟩
    exact ⟨m, mem_locatedBelow.2 ⟨hne, hm, by simp⟩, hk⟩

theorem map_snd_ofKind_locatedBelow (kind : Kind) (n : Node) :
    (ofKind kind (n.locatedBelow none)).map (·.2) = n.descendantsOfKind kind := by
  rw [map_snd_ofKind, map_snd_locatedBelow]
  rfl

theorem pairwise_placesOf (kind : Kind) : (n.placesOf kind).Pairwise (· < ·) := by
  have h := pairwise_locatedBelow none n
  rw [List.pairwise_map] at h
  rw [placesOf, List.pairwise_map]
  exact h.filter _

theorem nodup_placesOf (kind : Kind) : (n.placesOf kind).Nodup := by
  refine List.Pairwise.imp ?_ (pairwise_placesOf kind)
  rintro p q h rfl
  exact List.lt_irrefl p h

/-! ## The operations of a type -/

theorem operationPlaces_eq {t : Place} {m : Node} (ht : n.nodeAt? t = some m) :
    n.operationPlaces t = (operationsAt (t, m)).map (·.1) := by
  rw [operationPlaces, ht]

theorem map_fst_operationsAt (t : Place) (m : Node) :
    (operationsAt (t, m)).map (·.1) =
      ((ofKind .operationDeclaration (m.locatedBelow (some .typeDeclaration))).map (·.1)).map
        (t ++ ·) := by
  rw [operationsAt, List.map_map, List.map_map]
  rfl

/-- The operations that belong to a node are those below it with no type between. -/
theorem mem_operationPlaces {t p : Place} :
    p ∈ n.operationPlaces t ↔
      n.HasKindAt .operationDeclaration p ∧ t <+: p ∧ t ≠ p ∧
        ∀ s, t <+: s → t ≠ s → s <+: p → s ≠ p → ¬n.HasKindAt .typeDeclaration s := by
  rcases ht : n.nodeAt? t with _ | m
  · rw [operationPlaces, ht]
    refine ⟨fun h => absurd h List.not_mem_nil, ?_⟩
    rintro ⟨hp, ⟨q, rfl⟩, -⟩
    rw [HasKindAt, nodeAt?_append, ht] at hp
    exact absurd hp (by simp)
  · rw [operationPlaces_eq ht, map_fst_operationsAt, List.mem_map]
    constructor
    · rintro ⟨q, hq, rfl⟩
      obtain ⟨hne, hk, habove⟩ := mem_ofKind_locatedBelow.1 hq
      refine ⟨(hasKindAt_append ht _).2 hk, List.prefix_append t q, by simpa using hne, ?_⟩
      rintro _ ⟨s, rfl⟩ hs hpre hsq htype
      exact habove s (by simpa using hs) ((List.prefix_append_right_inj t).1 hpre)
        (by simpa using hsq) ((hasKindAt_append ht _).1 htype)
    · rintro ⟨hk, ⟨q, rfl⟩, hne, habove⟩
      have hkind := (hasKindAt_append ht _).1 hk
      refine ⟨q, mem_ofKind_locatedBelow.2 ⟨by simpa using hne, hkind, ?_⟩, rfl⟩
      intro s hs hpre hsq htype
      exact habove (t ++ s) (List.prefix_append t s) (by simpa using hs)
        ((List.prefix_append_right_inj t).2 hpre) (by simpa using hsq)
        ((hasKindAt_append ht _).2 htype)

/-- An operation belongs to a type below the node exactly if that type is the nearest above it. -/
theorem mem_operationPlaces_of_type {t p : Place} :
    t ∈ n.placesOf .typeDeclaration ∧ p ∈ n.operationPlaces t ↔
      n.HasKindAt .operationDeclaration p ∧ n.Nearest t p := by
  rw [mem_placesOf, mem_operationPlaces]
  constructor
  · rintro ⟨⟨hne, htype⟩, hk, hpre, htp, hbetween⟩
    refine ⟨hk, ⟨hne, hpre, htp, htype⟩, ?_⟩
    rintro s ⟨-, hs, hsp, hstype⟩
    rcases List.prefix_or_prefix_of_prefix hpre hs with hts | hst
    · by_contra hnot
      exact hbetween s hts (fun he => hnot (he ▸ List.prefix_rfl)) hs hsp hstype
    · exact hst
  · rintro ⟨hk, ⟨hne, hpre, htp, htype⟩, hlast⟩
    refine ⟨⟨hne, htype⟩, hk, hpre, htp, fun s hts hne' hs hsp hstype => ?_⟩
    have hnil : s ≠ [] := fun he => hne (List.prefix_nil.1 (he ▸ hts))
    have hst := hlast s ⟨hnil, hs, hsp, hstype⟩
    exact hne' (hts.eq_of_length_le hst.length_le)

/-- The operations that belong to the node itself are those that no type below it encloses. -/
theorem mem_operationPlaces_nil {p : Place} :
    p ∈ n.operationPlaces [] ↔
      p ≠ [] ∧ n.HasKindAt .operationDeclaration p ∧ ∀ t, ¬n.Encloses t p := by
  rw [mem_operationPlaces]
  constructor
  · rintro ⟨hk, -, hne, hbetween⟩
    refine ⟨Ne.symm hne, hk, ?_⟩
    rintro t ⟨hnil, hpre, htp, htype⟩
    exact hbetween t List.nil_prefix (Ne.symm hnil) hpre htp htype
  · rintro ⟨hne, hk, hnone⟩
    refine ⟨hk, List.nil_prefix, Ne.symm hne, fun s _ hs hpre hsp htype => ?_⟩
    exact hnone s ⟨Ne.symm hs, hpre, hsp, htype⟩

theorem operationPlaces_nil :
    n.operationPlaces [] =
      (ofKind .operationDeclaration (n.locatedBelow (some .typeDeclaration))).map (·.1) := by
  rw [operationPlaces_eq (nodeAt?_nil n), map_fst_operationsAt]
  exact List.map_id _

/-- Every operation stands once among those of the types and of the node itself. -/
theorem perm_operationPlaces :
    ((n.placesOf .typeDeclaration).flatMap n.operationPlaces ++ n.operationPlaces []).Perm
      (n.placesOf .operationDeclaration) := by
  have htypes : (typeOperations (n.locatedBelow none)).map (·.1) =
      (n.placesOf .typeDeclaration).flatMap n.operationPlaces := by
    rw [typeOperations, placesOf, List.map_flatMap, List.flatMap_map]
    refine List.flatMap_congr fun x hx => ?_
    obtain ⟨-, hat, -⟩ := mem_locatedBelow.1 (List.mem_filter.1 hx).1
    rw [operationPlaces_eq hat]
  have h := List.Perm.map (·.1) (splits_locatedBelow n)
  rw [List.map_append, htypes, ← operationPlaces_nil] at h
  exact h.symm

end Node

/-! ## The entries -/

namespace Listing

variable (file : String) (root : Node)

/-- Whether an entry is that of the node at a place. -/
def DescribesAt (p : Place) (e : OperationMetrics) : Prop :=
  ∃ n, root.nodeAt? p = some n ∧ ∃ metrics, e = entry file n metrics

/-- Whether an entry is that of the type at a place, with those of the operations that belong to
it. -/
def DescribesTypeAt (t : Place) (e : TypeMetrics) : Prop :=
  DescribesAt file root t e.toOperationMetrics ∧
    List.Forall₂ (DescribesAt file root) (root.operationPlaces t) e.operations

variable {file root}

/-- What corresponds to located nodes corresponds to their places. -/
theorem forall₂_places {α : Type} {R : Node → α → Prop} {S : Place → α → Prop}
    (h : ∀ p n a, root.nodeAt? p = some n → R n a → S p a) {found : List (Place × Node)}
    (hat : ∀ x ∈ found, root.nodeAt? x.1 = some x.2) {ns : List Node}
    (hns : found.map (·.2) = ns) {as : List α} (hall : List.Forall₂ R ns as) :
    List.Forall₂ S (found.map (·.1)) as := by
  subst hns
  rw [List.forall₂_map_left_iff] at hall ⊢
  refine List.Forall₂.imp (fun x a hx => ?_) ((List.forall₂_and_left found as).2 ⟨hat, hall⟩)
  exact h x.1 x.2 a hx.1 hx.2

theorem forall₂_operationEntries (ops : List Node) (memo : ProjectMemo) :
    List.Forall₂ (fun n e => ∃ metrics, e = entry file n metrics) ops
      (operationEntries file ops memo).1 := by
  induction ops generalizing memo with
  | nil => exact .nil
  | cons op ops ih => exact .cons ⟨_, rfl⟩ (ih _)

theorem forall₂_operationPlaces {t : Place} {n : Node} (ht : root.nodeAt? t = some n)
    (memo : ProjectMemo) :
    List.Forall₂ (DescribesAt file root) (root.operationPlaces t)
      (operationEntries file n.declaredOperations memo).1 := by
  rw [Node.operationPlaces_eq ht]
  refine forall₂_places (fun p m e hm he => ⟨m, hm, he⟩) (fun x hx => ?_)
    (Node.map_snd_operationsAt (t, n)) (forall₂_operationEntries n.declaredOperations memo)
  obtain ⟨⟨q, m⟩, hq, rfl⟩ := List.mem_map.1 hx
  obtain ⟨-, hm, -⟩ := Node.mem_locatedBelow.1 (List.mem_filter.1 hq).1
  simpa [Node.nodeAt?_append, ht] using hm

theorem describesTypeAt_typeEntry {t : Place} {n : Node} (ht : root.nodeAt? t = some n)
    (mode : Rollup) (memo : ProjectMemo) :
    DescribesTypeAt file root t (typeEntry file mode n memo).1 :=
  ⟨⟨n, ht, _, rfl⟩, forall₂_operationPlaces ht _⟩

theorem forall₂_typeEntries (mode : Rollup) (types : List Node) (memo : ProjectMemo) :
    List.Forall₂ (fun n e => ∃ memo, e = (typeEntry file mode n memo).1) types
      (typeEntries file mode types memo).1 := by
  induction types generalizing memo with
  | nil => exact .nil
  | cons n ns ih => exact .cons ⟨_, rfl⟩ (ih _)

/-- The types of a listing are those at the places of types, each with its operations. -/
theorem forall₂_collect (mode : Rollup) (memo : ProjectMemo) :
    List.Forall₂ (DescribesTypeAt file root) (root.placesOf .typeDeclaration)
      (collect file root mode memo).1.types := by
  refine forall₂_places (fun t n e (ht : root.nodeAt? t = some n) he => ?_) (fun x hx => ?_)
    (Node.map_snd_ofKind_locatedBelow _ root)
    (forall₂_typeEntries mode (root.descendantsOfKind .typeDeclaration) memo)
  · obtain ⟨memo, rfl⟩ := he
    exact describesTypeAt_typeEntry ht mode memo
  · exact (Node.mem_locatedBelow.1 (List.mem_filter.1 hx).1).2.1

/-- A listing has the types below the root in pre-order, and each operation below the root once:
with the nearest type above it, or as a function if there is none below the root. -/
theorem collect_lists_each_once (file : String) (root : Node) (mode : Rollup)
    (memo : ProjectMemo) :
    let listing := (collect file root mode memo).1
    let types := root.placesOf .typeDeclaration
    let operations := root.placesOf .operationDeclaration
    (List.Forall₂ (DescribesTypeAt file root) types listing.types ∧
      List.Forall₂ (DescribesAt file root) (root.operationPlaces []) listing.functions) ∧
    (types.Pairwise (· < ·) ∧ ∀ t, t ∈ types ↔ t ≠ [] ∧ root.HasKindAt .typeDeclaration t) ∧
    (operations.Nodup ∧ ∀ p, p ∈ operations ↔ p ≠ [] ∧ root.HasKindAt .operationDeclaration p) ∧
    (types.flatMap root.operationPlaces ++ root.operationPlaces []).Perm operations ∧
    (∀ t p, t ∈ types ∧ p ∈ root.operationPlaces t ↔
      root.HasKindAt .operationDeclaration p ∧ root.Nearest t p) ∧
    ∀ p, p ∈ root.operationPlaces [] ↔
      p ≠ [] ∧ root.HasKindAt .operationDeclaration p ∧ ∀ t, ¬root.Encloses t p := by
  exact ⟨⟨forall₂_collect mode memo, forall₂_operationPlaces rfl _⟩,
    ⟨Node.pairwise_placesOf _, fun t => Node.mem_placesOf⟩,
    ⟨Node.nodup_placesOf _, fun p => Node.mem_placesOf⟩, Node.perm_operationPlaces,
    fun t p => Node.mem_operationPlaces_of_type, fun p => Node.mem_operationPlaces_nil⟩

end Listing

end CodeGauge

import Mathlib.Data.List.Nodup
import CodeGauge.Proofs.Place

/-!
# A walk taken node by node

A walk need not be run to its end at once: it can be asked for one node after the other, and between
two of them all it holds is the pending nodes, a mixture of siblings from many levels (`next?`). The
pre-order of what is pending is what the walk still lists, so asking for a node takes the head off
that pre-order (`preorders_of_next?`), and whenever the walk is stopped, the nodes taken so far and
the pre-order of what is pending are the whole of it (`Takes.preorders_eq`).

The last statement puts this together with places: from any node and for any barrier the walk lists
the nodes strictly below in document order, each of them once if no barrier stands between and
otherwise not at all.
-/

namespace CodeGauge

namespace Node

variable (barrier : Option Kind)

/-- The next node of a walk, and what is pending then. -/
def next? : List Node → Option (Node × List Node)
  | [] => none
  | n :: pending => some (n, n.entered barrier ++ pending)

/-- Asking for one node after the other: from what is pending at first, through the nodes taken, to
what is pending at last. -/
inductive Takes : List Node → List Node → List Node → Prop
  | nothing {pending : List Node} : Takes pending [] pending
  | next {pending later last taken : List Node} {n : Node}
    (h : next? barrier pending = some (n, later)) (rest : Takes later taken last) :
    Takes pending (n :: taken) last

variable {barrier}

/-- What a walk still lists loses its first node when the node is asked for. -/
theorem preorders_of_next? {pending later : List Node} {n : Node}
    (h : next? barrier pending = some (n, later)) :
    preorders barrier pending = n :: preorders barrier later := by
  rcases pending with _ | ⟨m, pending⟩
  · simp [next?] at h
  · rw [next?, Option.some.injEq, Prod.mk.injEq] at h
    obtain ⟨rfl, rfl⟩ := h
    rw [preorders, preorder_eq, preorders_append]
    rfl

theorem Takes.preorders_eq {pending taken last : List Node} (h : Takes barrier pending taken last) :
    preorders barrier pending = taken ++ preorders barrier last := by
  induction h with
  | nothing => rfl
  | next hnext _ ih => rw [preorders_of_next? hnext, ih, List.cons_append]

variable (barrier)

/-- A walk that is asked until it has no node left has given the pre-order. -/
theorem takes_preorders (pending : List Node) :
    Takes barrier pending (preorders barrier pending) [] := by
  -- along the recursion of a walk that is run to its end, whatever it has found before
  have hrun : ∀ found : List Node, Takes barrier pending (preorders barrier pending) [] := by
    intro found
    induction found, pending using walk.induct barrier with
    | case1 found => exact .nothing
    | case2 found n pending ih =>
      have hnext : next? barrier (n :: pending) = some (n, n.entered barrier ++ pending) := rfl
      rw [preorders_of_next? hnext]
      exact .next hnext ih
  exact hrun []

/-! ## Where the nodes stand -/

/-- Whether no node strictly between a node and a place below it is a barrier. -/
def Unbarred (n : Node) (p : Place) : Prop :=
  ∀ q m, q ≠ [] → q <+: p → q ≠ p → n.nodeAt? q = some m → barrier ≠ some m.kind

theorem mem_places_iff {n m : Node} {p : Place} (hp : p ≠ []) (hm : n.nodeAt? p = some m) :
    p ∈ (n.locatedBelow barrier).map (·.1) ↔ n.Unbarred barrier p := by
  rw [List.mem_map]
  constructor
  · rintro ⟨⟨p, m⟩, h, rfl⟩
    exact (mem_locatedBelow.1 h).2.2
  · exact fun h => ⟨(p, m), mem_locatedBelow.2 ⟨hp, hm, h⟩, rfl⟩

theorem forall₂_locatedBelow (n : Node) :
    List.Forall₂ (fun p m => n.nodeAt? p = some m) ((n.locatedBelow barrier).map (·.1))
      (n.nodesBelow barrier) := by
  rw [← map_snd_locatedBelow, List.forall₂_map_left_iff, List.forall₂_map_right_iff,
    List.forall₂_same]
  exact fun x hx => (mem_locatedBelow.1 (by simpa using hx)).2.1

/-- A walk with any barrier from a node takes the nodes strictly below in the order of the recursion
over the node's children, whatever the kind of the node itself. Stopped anywhere, it has taken what
the pre-order of the pending nodes lacks. Its nodes stand in ascending places below the node, and a
place is among them exactly once if no barrier is strictly between, and otherwise never. -/
theorem walk_takes_preorder (n : Node) :
    n.nodesBelow barrier = preorders barrier n.children ∧
    Takes barrier n.children (n.nodesBelow barrier) [] ∧
    (∀ taken pending, Takes barrier n.children taken pending →
      n.nodesBelow barrier = taken ++ preorders barrier pending) ∧
    ∃ places : List Place, places.Pairwise (· < ·) ∧ [] ∉ places ∧
      List.Forall₂ (fun p m => n.nodeAt? p = some m) places (n.nodesBelow barrier) ∧
      ∀ p m, p ≠ [] → n.nodeAt? p = some m →
        (places.count p = 1 ↔ n.Unbarred barrier p) ∧
        (places.count p = 0 ↔ ¬n.Unbarred barrier p) := by
  refine ⟨nodesBelow_eq barrier n, ?_, fun taken pending h => ?_,
    (n.locatedBelow barrier).map (·.1), pairwise_locatedBelow barrier n, ?_,
    forall₂_locatedBelow barrier n, fun p m hp hm => ?_⟩
  · rw [nodesBelow_eq]
    exact takes_preorders barrier n.children
  · rw [nodesBelow_eq]
    exact h.preorders_eq
  · rintro h
    obtain ⟨⟨p, m⟩, h, rfl⟩ := List.mem_map.1 h
    exact (mem_locatedBelow.1 h).1 rfl
  · have hnodup : ((n.locatedBelow barrier).map (·.1)).Nodup := by
      refine (pairwise_locatedBelow barrier n).imp ?_
      rintro q _ h rfl
      exact List.lt_irrefl q h
    rw [← mem_places_iff barrier hp hm, List.count_eq_zero]
    refine ⟨⟨fun h => List.count_pos_iff.1 (by omega), fun h => ?_⟩, Iff.rfl⟩
    exact List.count_eq_one_of_mem hnodup h

end Node

end CodeGauge

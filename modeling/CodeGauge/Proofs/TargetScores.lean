import Mathlib.Algebra.Ring.Nat
import CodeGauge.Proofs.Targets

/-!
# The scores of a counting rule

`NodeCountRule.total` follows the recursion of a counting rule. Here it is told by places: a target
scores one for each place that its scoring lets count (`Scores`). A rule that counts all kinds but
some counts every place of the target's own tree (`total_allExcept`); one that counts a kind counts
the places of that kind with none of the kind between (`total_only`); one that measures lines takes
them from the target alone.

The nodes that the rule enters stand in post-order, by which the place of a node comes after all
places below it and places part to the left before the right (`pairwise_entered`). With the targets
among them this gives the data points of a tree, in order and with their scores
(`dataPoints_postorder`).
-/

namespace CodeGauge

/-- Whether a place comes before another in post-order. -/
inductive Place.Before : Place → Place → Prop
  | descendant (i : Nat) (p : Place) : Before (i :: p) []
  | left {i j : Nat} (h : i < j) (p q : Place) : Before (i :: p) (j :: q)
  | step (i : Nat) {p q : Place} (h : Before p q) : Before (i :: p) (i :: q)

/-- Whether a number is that of the places with a property. -/
def CountsPlaces (P : Place → Prop) (count : Nat) : Prop :=
  ∃ places : List Place, places.Nodup ∧ (∀ p, p ∈ places ↔ P p) ∧ places.length = count

namespace NodeCountRule

variable (r : NodeCountRule)

/-- Whether a number is the score of a target by the rule's scoring. -/
def Scores (n : Node) (score : Nat) : Prop :=
  match r.scoring with
  | .allExcept kinds =>
    CountsPlaces (fun p => ∃ m, n.nodeAt? p = some m ∧ m.kind ∉ kinds) score
  | .only kind =>
    if kind = r.target then score = 0
    else CountsPlaces (fun p => p ≠ [] ∧ n.HasKindAt kind p ∧
      ∀ q, q ≠ [] → q <+: p → q ≠ p → ¬n.HasKindAt kind q) score
  | .span => score = n.span.last - n.span.first

/-- Whether the node at a place counts as a whole. -/
def WholeAt (root : Node) (p : Place) : Prop :=
  ∃ kind, r.scoring = .only kind ∧ kind ≠ r.target ∧ root.HasKindAt kind p

/-! ## Post-order -/

theorem pairwise_entered (n : Node) :
    ((r.entered n).map (·.1)).Pairwise Place.Before := by
  induction n using Node.children_induction with
  | mk head children ih =>
    unfold entered
    split
    · exact .nil
    · have hbelow : ((Node.gather r.entered 0 children).map (·.1)).Pairwise Place.Before :=
        Node.pairwise_gather (fun i _ _ h => .step i h) (fun _ _ p q h => .left h p q) 0 children
          ih
      rw [reached_eq, List.map_append, List.pairwise_append]
      refine ⟨hbelow, by simp, fun p hp q hq => ?_⟩
      obtain ⟨⟨p, m⟩, hpm, rfl⟩ := List.mem_map.1 hp
      obtain rfl : q = [] := by simpa using hq
      rcases p with _ | ⟨i, p⟩
      · exact absurd hpm Node.nil_notMem_gather
      · exact .descendant i p

theorem countsWhole_iff {n : Node} :
    r.countsWhole n ↔ ∃ kind, r.scoring = .only kind ∧ kind ≠ r.target ∧ n.kind = kind := by
  unfold countsWhole
  rcases r.scoring with kinds | kind | _
  · simp
  · constructor
    · intro h
      simp only [ne_eq, Bool.and_eq_true, decide_eq_true_eq] at h
      exact ⟨kind, rfl, fun he => h.2 (h.1.trans he), h.1⟩
    · rintro ⟨kind', hs, hne, hk⟩
      cases hs
      simp [hk, hne]
  · simp

theorem mem_entered_iff {root n : Node} {p : Place} :
    (p, n) ∈ r.entered root ↔
      root.nodeAt? p = some n ∧ ¬∃ q, q <+: p ∧ r.WholeAt root q := by
  rw [mem_entered]
  have hwhole {q : Place} {m : Node} (hm : root.nodeAt? q = some m) :
      r.countsWhole m ↔ r.WholeAt root q := by
    simp [countsWhole_iff, WholeAt, Node.HasKindAt, hm]
  constructor
  · rintro ⟨hn, habove, hself⟩
    refine ⟨hn, ?_⟩
    rintro ⟨q, hq, hw⟩
    obtain ⟨kind, hs, hne, hk⟩ := hw
    obtain ⟨m, hm, hmk⟩ := Node.hasKindAt_iff.1 hk
    by_cases hqp : q = p
    · subst hqp
      obtain rfl : n = m := Option.some.inj (hn.symm.trans hm)
      exact hself ((hwhole hm).2 ⟨kind, hs, hne, hk⟩)
    · exact habove q m hq hqp hm ((hwhole hm).2 ⟨kind, hs, hne, hk⟩)
  · rintro ⟨hn, hnone⟩
    refine ⟨hn, fun q m hq _ hm hw => hnone ⟨q, hq, (hwhole hm).1 hw⟩, fun hw => ?_⟩
    exact hnone ⟨p, List.prefix_rfl, (hwhole hn).1 hw⟩

/-! ## Totals -/

section Totals

variable {r}

theorem totals_eq_sum (cs : List Node) :
    r.totals cs = (cs.map fun c => if r.countsWhole c then 1 else r.total c).sum := by
  induction cs with
  | nil => rw [totals, List.map_nil, List.sum_nil]
  | cons c cs ih => rw [totals, ih, List.map_cons, List.sum_cons]

theorem countP_preorders (barrier : Option Kind) (sort : Node → Bool) (ns : List Node) :
    (Node.preorders barrier ns).countP sort =
      (ns.map fun n => (n.preorder barrier).countP sort).sum := by
  rw [Node.preorders_eq_flatMap, List.countP_flatMap]
  rfl

theorem total_allExcept {kinds : List Kind} (hs : r.scoring = .allExcept kinds) (n : Node) :
    r.total n = (n.preorder none).countP fun m => !kinds.contains m.kind := by
  have hnone (c : Node) : ¬r.countsWhole c := by simp [countsWhole, hs]
  induction n using Node.children_induction with
  | mk head children ih =>
    have hchildren : r.totals (Node.mk head children).children =
        (Node.preorders none children).countP fun m => !kinds.contains m.kind := by
      rw [totals_eq_sum, countP_preorders]
      exact congrArg _ (List.map_congr_left fun c hc => (if_neg (hnone c)).trans (ih c hc))
    rw [total_eq, hchildren, score, hs, Node.preorder_eq, Node.entered_none, List.countP_cons]
    by_cases h : (Node.mk head children).kind ∈ kinds <;> simp [h, Node.children]

section Only

variable {kind : Kind} (hs : r.scoring = .only kind)

include hs

theorem total_of_only (n : Node) : r.total n = r.totals n.children := by
  rw [total_eq, score, hs]

theorem countsWhole_of_only (hne : kind ≠ r.target) (n : Node) :
    r.countsWhole n ↔ n.kind = kind := by
  rw [countsWhole_iff]
  constructor
  · rintro ⟨kind', hs', -, hk⟩
    rw [hs] at hs'
    exact hk.trans (Scoring.only.inj hs').symm
  · exact fun hk => ⟨kind, hs, hne, hk⟩

theorem total_only (hne : kind ≠ r.target) (n : Node) :
    r.total n = (n.nodesBelow (some kind)).countP (·.kind = kind) := by
  have hwhole := countsWhole_of_only hs hne
  -- what a node adds to the total of its parent is what the walk counts at and below it
  have hadded (n : Node) : (if r.countsWhole n then 1 else r.total n) =
      (n.preorder (some kind)).countP (·.kind = kind) := by
    induction n using Node.children_induction with
    | mk head children ih =>
      have hchildren : r.totals (Node.mk head children).children =
          (Node.preorders (some kind) children).countP (·.kind = kind) := by
        rw [totals_eq_sum, countP_preorders]
        exact congrArg _ (List.map_congr_left ih)
      rw [total_of_only hs, hchildren, Node.preorder_eq, Node.entered, List.countP_cons]
      by_cases hk : (Node.mk head children).kind = kind
      · simp [hk, (hwhole _).2 hk, Node.preorders]
      · have hbarrier : ¬some kind = some (Node.mk head children).kind := fun h =>
          hk (Option.some.inj h).symm
        rw [if_neg fun h => hk ((hwhole _).1 h), if_neg hbarrier]
        simp [hk, Node.children]
  rw [total_of_only hs, totals_eq_sum, Node.nodesBelow_eq, countP_preorders]
  exact congrArg _ (List.map_congr_left fun c _ => hadded c)

theorem total_only_target (ht : kind = r.target) (n : Node) : r.total n = 0 := by
  induction n using Node.children_induction with
  | mk head children ih =>
    have hzero (c : Node) (hc : c ∈ children) :
        (if r.countsWhole c then 1 else r.total c) = 0 := by
      have hw : ¬r.countsWhole c := by simp [countsWhole, hs, ht]
      rw [if_neg hw, ih c hc]
    rw [total_of_only hs, totals_eq_sum, Node.children, List.map_congr_left hzero]
    simp

end Only

end Totals

/-! ## Totals by place -/

theorem countsPlaces_countP {found : List (Place × Node)} {sort : Node → Bool}
    {P : Place → Prop} (hlt : (found.map (·.1)).Pairwise (· < ·))
    (hP : ∀ p, (∃ m, (p, m) ∈ found ∧ sort m) ↔ P p) :
    CountsPlaces P ((found.map (·.2)).countP sort) := by
  refine ⟨(found.filter fun x => sort x.2).map (·.1), ?_, fun p => ?_, ?_⟩
  · have hsub : ((found.filter fun x => sort x.2).map (·.1)).Sublist (found.map (·.1)) :=
      List.filter_sublist.map _
    refine (hlt.sublist hsub).imp ?_
    rintro p q h rfl
    exact List.lt_irrefl p h
  · rw [← hP]
    simp
  · rw [List.length_map, List.countP_map, List.countP_eq_length_filter]
    rfl

theorem scores_total {n : Node} (hk : n.kind = r.target) : r.Scores n (r.total n) := by
  unfold Scores
  rcases hs : r.scoring with kinds | kind | _
  · rw [total_allExcept hs, ← Node.map_snd_located]
    refine countsPlaces_countP (Node.pairwise_located none n) fun p => exists_congr fun m => ?_
    rw [Node.mem_located]
    simp [Node.NoneAbove]
  · simp only []
    split
    · rename_i ht
      exact total_only_target hs ht n
    · rename_i hne
      rw [total_only hs hne, ← Node.map_snd_locatedBelow]
      refine countsPlaces_countP (Node.pairwise_locatedBelow _ n) fun p => ?_
      rw [← Node.mem_ofKind_locatedBelow, Node.mem_map_fst_ofKind]
      simp
  · rw [total_eq, score, hs]
    exact if_pos hk

/-- The data point of a node with a score. -/
def pointWith (n : Node) (score : Nat) : DataPoint :=
  let label := r.label score
  ⟨n, score, label, Message.format r.message [label]⟩

theorem pointsOf_eq (found : List (Place × Node)) :
    r.pointsOf found = ((found.filter fun x => x.2.kind = r.target).filter fun x =>
      r.minimum < Float.ofNat (r.total x.2)).map fun x => r.pointWith x.2 (r.total x.2) := by
  rw [List.filter_filter]
  unfold pointsOf
  induction found with
  | nil => rfl
  | cons x found ih =>
    rw [List.filterMap_cons, List.filter_cons, ih, point?]
    by_cases hk : x.2.kind = r.target <;>
      by_cases hlt : r.minimum < Float.ofNat (r.total x.2) <;> simp [hk, hlt, pointWith]

/-- The data points of a tree are the targets that the rule enters with a score above the minimum,
in post-order. The rule enters a node exactly if none from the root down to it counts as a whole. -/
theorem dataPoints_postorder (r : NodeCountRule) (root : Node) :
    let targets := (r.entered root).filter fun x => x.2.kind = r.target
    r.dataPoints root = ((targets.filter fun x =>
      r.minimum < Float.ofNat (r.total x.2)).map fun x => r.pointWith x.2 (r.total x.2)) ∧
    ((r.entered root).map (·.1)).Pairwise Place.Before ∧
    (∀ p n, (p, n) ∈ r.entered root ↔
      root.nodeAt? p = some n ∧ ¬∃ q, q <+: p ∧ r.WholeAt root q) ∧
    ∀ x ∈ targets, r.Scores x.2 (r.total x.2) := by
  refine ⟨?_, r.pairwise_entered root, fun p n => r.mem_entered_iff, fun x hx => ?_⟩
  · rw [dataPoints_eq, pointsOf_eq]
  · exact r.scores_total (by simpa using (List.mem_filter.1 hx).2)

end NodeCountRule

namespace Design

theorem nestingType_scored :
    let targets := (excessiveMethodCount.entered nestingType).filter fun x =>
      x.2.kind = excessiveMethodCount.target
    targets = [([1], localType), ([], nestingType)] ∧
      excessiveMethodCount.Scores localType 3 ∧ excessiveMethodCount.Scores nestingType 5 ∧
      (excessiveMethodCount.dataPoints nestingType).map (fun d => (d.node, d.score)) =
        [(localType, 3), (nestingType, 5)] := by
  intro targets
  have htargets : targets = [([1], localType), ([], nestingType)] := rfl
  obtain ⟨hpoints, -, -, hscores⟩ :=
    NodeCountRule.dataPoints_postorder excessiveMethodCount nestingType
  refine ⟨htargets, hscores ([1], localType) (by simp [htargets, targets]),
    hscores ([], nestingType) (by simp [htargets, targets]), ?_⟩
  rw [hpoints]
  rfl

end Design

end CodeGauge

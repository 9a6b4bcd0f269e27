import Mathlib.Data.List.Sort
import CodeGauge.Report.Violation

/-!
# The order of a report

Violations are ordered by file, line and rule, and sorting keeps the order of those that agree in
all three. So a sorted list is told by what stands in each tie (`mergeSort_eq_of_ties_eq`): two
lists of violations have one sorted list if any violation ties with the same ones of both, in the
same order. Parts of a list that have no ties with each other may change places
(`ties_flatMap_perm`).
-/

namespace CodeGauge

/-! ## Ties -/

section Ties

variable {α : Type} (cmp : α → α → Ordering)

/-- What compares equal to a value, in the order of a list. -/
def ties (a : α) (l : List α) : List α := l.filter fun b => cmp a b = .eq

theorem mem_ties {a b : α} {l : List α} : b ∈ ties cmp a l ↔ b ∈ l ∧ cmp a b = .eq := by
  rw [ties, List.mem_filter, decide_eq_true_iff]

theorem ties_cons_of_eq {a b : α} (h : cmp a b = .eq) (l : List α) :
    ties cmp a (b :: l) = b :: ties cmp a l :=
  List.filter_cons_of_pos (decide_eq_true h)

theorem ties_cons_of_ne {a b : α} (h : cmp a b ≠ .eq) (l : List α) :
    ties cmp a (b :: l) = ties cmp a l :=
  List.filter_cons_of_neg (by simpa using h)

theorem ties_append (a : α) (l m : List α) : ties cmp a (l ++ m) = ties cmp a l ++ ties cmp a m :=
  List.filter_append l m

theorem ties_filter (a : α) (p : α → Bool) (l : List α) :
    ties cmp a (l.filter p) = (ties cmp a l).filter p := by
  unfold ties
  rw [List.filter_filter, List.filter_filter]
  simp only [Bool.and_comm]

/-- Parts of which no two have ties with the same value may stand in any order. -/
theorem ties_flatMap_perm {β : Type} (part : β → List α) (a : α) {xs ys : List β} (h : xs.Perm ys)
    (hd : xs.Pairwise fun x y => ties cmp a (part x) = [] ∨ ties cmp a (part y) = []) :
    ties cmp a (xs.flatMap part) = ties cmp a (ys.flatMap part) := by
  induction h with
  | nil => rfl
  | cons x _ ih =>
    rw [List.flatMap_cons, List.flatMap_cons, ties_append, ties_append,
      ih (List.pairwise_cons.1 hd).2]
  | swap x y rest =>
    simp only [List.flatMap_cons, ties_append]
    rcases (List.pairwise_cons.1 hd).1 x List.mem_cons_self with hy | hx
    · simp [hy]
    · simp [hx]
  | trans hfirst _ ihfirst ihsecond =>
    exact (ihfirst hd).trans (ihsecond (hfirst.pairwise hd Or.symm))

variable [Std.TransCmp cmp]

theorem isLE_total (a b : α) : ((cmp a b).isLE || (cmp b a).isLE) = true := by
  have hswap : cmp b a = (cmp a b).swap := Std.OrientedCmp.eq_swap
  rw [hswap]
  cases cmp a b <;> rfl

theorem ties_mergeSort (a : α) (l : List α) :
    ties cmp a (l.mergeSort fun b c => (cmp b c).isLE) = ties cmp a l := by
  have htied : (ties cmp a l).Pairwise fun b c => (cmp b c).isLE := by
    refine List.pairwise_of_forall_mem_list fun b hb c hc => ?_
    rw [← Std.TransCmp.congr_left ((mem_ties cmp).1 hb).2, ((mem_ties cmp).1 hc).2]
    rfl
  have hsub := List.sublist_mergeSort (fun _ _ _ => Std.TransCmp.isLE_trans) (isLE_total cmp)
    htied List.filter_sublist
  have hties := hsub.filter fun b => decide (cmp a b = .eq)
  rw [ties, List.filter_filter] at hties
  simp only [Bool.and_self] at hties
  have hperm := (List.mergeSort_perm l fun b c => (cmp b c).isLE).filter
    fun b => decide (cmp a b = .eq)
  exact (hties.eq_of_length hperm.length_eq.symm).symm

theorem isLE_of_mem_sorted {a b : α} {l : List α}
    (h : (a :: l).Pairwise fun b c => (cmp b c).isLE) (hb : b ∈ a :: l) : (cmp a b).isLE := by
  rcases List.mem_cons.1 hb with rfl | hb
  · exact Ordering.isLE_of_eq_eq Std.ReflCmp.compare_self
  · exact (List.pairwise_cons.1 h).1 b hb

/-- Two sorted lists with the same ties are equal. -/
theorem eq_of_ties_eq : ∀ {l m : List α}, (l.Pairwise fun b c => (cmp b c).isLE) →
    (m.Pairwise fun b c => (cmp b c).isLE) → (∀ a, ties cmp a l = ties cmp a m) → l = m
  | [], [], _, _, _ => rfl
  | [], b :: m, _, _, h => by
    have hb := h b
    rw [ties_cons_of_eq cmp Std.ReflCmp.compare_self] at hb
    cases hb
  | a :: l, [], _, _, h => by
    have ha := h a
    rw [ties_cons_of_eq cmp Std.ReflCmp.compare_self] at ha
    cases ha
  | a :: l, b :: m, hl, hm, h => by
    -- each head is in the other list, behind its head or at it
    have hb : b ∈ a :: l := by
      have hb := h b
      rw [ties_cons_of_eq cmp Std.ReflCmp.compare_self m] at hb
      exact ((mem_ties cmp).1 (hb ▸ List.mem_cons_self)).1
    have ha : a ∈ b :: m := by
      have ha := h a
      rw [ties_cons_of_eq cmp Std.ReflCmp.compare_self l] at ha
      exact ((mem_ties cmp).1 (ha ▸ List.mem_cons_self)).1
    have htie : cmp a b = .eq :=
      Std.OrientedCmp.isLE_antisymm (isLE_of_mem_sorted cmp hl hb) (isLE_of_mem_sorted cmp hm ha)
    have hheads := h a
    rw [ties_cons_of_eq cmp Std.ReflCmp.compare_self, ties_cons_of_eq cmp htie] at hheads
    obtain ⟨rfl, htails⟩ := List.cons.inj hheads
    rw [eq_of_ties_eq (List.pairwise_cons.1 hl).2 (List.pairwise_cons.1 hm).2 fun c => ?_]
    by_cases hc : cmp c a = .eq
    · have hcons := h c
      rw [ties_cons_of_eq cmp hc, ties_cons_of_eq cmp hc] at hcons
      exact (List.cons.inj hcons).2
    · have hskip := h c
      rwa [ties_cons_of_ne cmp hc, ties_cons_of_ne cmp hc] at hskip

theorem sorted_mergeSort (l : List α) :
    (l.mergeSort fun b c => (cmp b c).isLE).Pairwise fun b c => (cmp b c).isLE :=
  List.pairwise_mergeSort (fun _ _ _ => Std.TransCmp.isLE_trans) (isLE_total cmp) l

theorem mergeSort_eq_of_ties_eq {l m : List α} (h : ∀ a, ties cmp a l = ties cmp a m) :
    (l.mergeSort fun b c => (cmp b c).isLE) = m.mergeSort fun b c => (cmp b c).isLE := by
  refine eq_of_ties_eq cmp (sorted_mergeSort cmp l) (sorted_mergeSort cmp m) fun a => ?_
  rw [ties_mergeSort, ties_mergeSort, h]

/-- What is left of a sorted list is sorted by itself. -/
theorem filter_mergeSort (p : α → Bool) (l : List α) :
    (l.mergeSort fun b c => (cmp b c).isLE).filter p =
      (l.filter p).mergeSort fun b c => (cmp b c).isLE := by
  refine eq_of_ties_eq cmp ((sorted_mergeSort cmp l).filter p) (sorted_mergeSort cmp _) fun a => ?_
  rw [ties_filter, ties_mergeSort, ties_mergeSort, ties_filter]

end Ties

/-! ## Violations -/

instance : Std.TransCmp Path.Component.compare := inferInstanceAs (Std.TransCmp (compareLex _ _))

instance : Std.LawfulEqCmp Path.Component.compare where
  eq_of_compare {a b} h := by
    obtain ⟨hrank, htext⟩ := compareLex_eq_eq.1 h
    have hrank : a.rank = b.rank := Std.LawfulEqCmp.eq_of_compare hrank
    have htext : a.text = b.text := Std.LawfulEqCmp.eq_of_compare htext
    cases a <;> cases b <;> simp_all [Path.Component.rank, Path.Component.text]

theorem Path.same_iff {a b : String} : same a b ↔ components a = components b := beq_iff_eq

theorem Path.compare_eq_iff {a b : String} : compare a b = .eq ↔ same a b := by
  rw [same_iff, compare]
  exact Std.LawfulEqCmp.compare_eq_iff_eq

instance : Std.TransCmp Path.compare where
  eq_swap {a b} := @Std.OrientedCmp.eq_swap _ (List.compareLex Path.Component.compare) _
    (Path.components a) (Path.components b)
  isLE_trans {a b c} := @Std.TransCmp.isLE_trans _ (List.compareLex Path.Component.compare) _
    (Path.components a) (Path.components b) (Path.components c)

namespace Violation

instance : Std.TransCmp fun a b : Violation => Path.compare a.file b.file where
  eq_swap {v w} := @Std.OrientedCmp.eq_swap _ Path.compare _ v.file w.file
  isLE_trans {u v w} := @Std.TransCmp.isLE_trans _ Path.compare _ u.file v.file w.file

instance : Std.TransCmp compare := inferInstanceAs (Std.TransCmp (compareLex _ _))

theorem same_file_of_compare {v w : Violation} (h : v.compare w = .eq) :
    Path.same v.file w.file :=
  Path.compare_eq_iff.1 (compareLex_eq_eq.1 h).1

theorem rule_eq_of_compare {v w : Violation} (h : v.compare w = .eq) : v.rule = w.rule := by
  obtain ⟨-, h⟩ := compareLex_eq_eq.1 h
  obtain ⟨-, h⟩ := compareLex_eq_eq.1 h
  exact Std.LawfulEqCmp.eq_of_compare h

end Violation

end CodeGauge

import Mathlib.Data.List.Pairwise

/-!
# Lists and options

Facts of lists that the proofs about trees, names and tables share: what a partial map makes of
distinct members, what a filter leaves of a search, and what is found first in a list that is sorted
by its names.
-/

namespace CodeGauge

variable {α β : Type}

/-! ## Partial maps -/

theorem reverse_toList (o : Option α) : o.toList.reverse = o.toList := by
  rcases o with _ | a <;> rfl

section FilterMap

variable {f : α → Option β} {l : List α}

theorem filterMap_cons_toList (f : α → Option β) (x : α) (xs : List α) :
    (x :: xs).filterMap f = (f x).toList ++ xs.filterMap f := by
  rw [List.filterMap_cons]
  rcases f x with _ | y <;> rfl

/-- Members of a list that a partial map sends to one value are one, if the values are distinct. -/
theorem eq_of_nodup_filterMap (h : (l.filterMap f).Nodup) {a b : α} (ha : a ∈ l) (hb : b ∈ l)
    {c : β} (hac : f a = some c) (hbc : f b = some c) : a = b := by
  have : Std.Symm fun x y => ∀ p, f x = some p → ∀ q, f y = some q → p ≠ q :=
    ⟨fun x y hxy p hp q hq hpq => hxy q hq p hp hpq.symm⟩
  by_contra hne
  exact (List.pairwise_filterMap.1 h).forall ha hb hne c hac c hbc rfl

theorem nodup_of_nodup_filterMap (h : (l.filterMap f).Nodup) (hsome : ∀ a ∈ l, (f a).isSome) :
    l.Nodup := by
  refine List.Pairwise.imp_of_mem ?_ (List.pairwise_filterMap.1 h)
  rintro a _ ha - hne rfl
  obtain ⟨b, hb⟩ := Option.isSome_iff_exists.1 (hsome a ha)
  exact hne b hb b hb rfl

end FilterMap

/-! ## Filters -/

theorem find?_filter_of_found {p q : α → Bool} :
    ∀ {l : List α}, (∀ a, l.find? p = some a → q a) → (l.filter q).find? p = l.find? p
  | [], _ => rfl
  | a :: l, h => by
    rw [List.find?_cons] at h ⊢
    cases hp : p a with
    | true =>
      have hq : q a := h a (by rw [hp])
      rw [List.filter_cons_of_pos hq, List.find?_cons, hp]
    | false =>
      have ih := find?_filter_of_found fun b hb => h b (by rw [hp]; exact hb)
      rw [List.filter_cons]
      split
      · rw [List.find?_cons, hp]
        exact ih
      · exact ih

theorem flatMap_filter_of_nil {q : α → Bool} {f : α → List β} {l : List α}
    (h : ∀ a ∈ l, ¬q a → f a = []) : (l.filter q).flatMap f = l.flatMap f := by
  induction l with
  | nil => rfl
  | cons a l ih =>
    have ih := ih fun b hb => h b (List.mem_cons_of_mem a hb)
    rw [List.filter_cons, List.flatMap_cons, ← ih]
    split
    · rw [List.flatMap_cons]
    · rename_i hq
      rw [h a List.mem_cons_self hq, List.nil_append]

/-! ## Prefixes -/

/-- A prefix that does not have an element of a list ends before it. -/
theorem isPrefixOf_append_cons [BEq α] [LawfulBEq α] {what b : List α} {c : α} (hc : c ∉ what)
    (a : List α) : what.isPrefixOf (a ++ c :: b) = what.isPrefixOf a := by
  induction what generalizing a with
  | nil => simp
  | cons w what ih =>
    rw [List.mem_cons, not_or] at hc
    cases a with
    | nil => simp [List.isPrefixOf, Ne.symm hc.1]
    | cons d a => simp [List.isPrefixOf, ih hc.2]

/-! ## Lists sorted by name -/

section Sorted

variable {l : List (String × α)} (hsorted : l.Pairwise (·.1 < ·.1))

include hsorted

theorem mem_takeWhile_of_sorted [DecidableEq α] {stop e : String × α} :
    e ∈ l.takeWhile (· ≠ stop) ↔ e ∈ l ∧ (stop ∈ l → e.1 < stop.1) := by
  induction l with
  | nil => simp
  | cons x xs ih =>
    obtain ⟨hfirst, hrest⟩ := List.pairwise_cons.1 hsorted
    by_cases hx : x = stop
    · subst hx
      rw [List.takeWhile_cons, if_neg (by simp)]
      refine iff_of_false (List.not_mem_nil) fun ⟨he, hlt⟩ => ?_
      have hlt := hlt List.mem_cons_self
      rcases List.mem_cons.1 he with rfl | he
      · exact String.lt_irrefl _ hlt
      · exact String.lt_irrefl _ (String.lt_trans hlt (hfirst e he))
    · rw [List.takeWhile_cons, if_pos (decide_eq_true hx), List.mem_cons, ih hrest, List.mem_cons,
        List.mem_cons, or_iff_right (Ne.symm hx)]
      constructor
      · rintro (rfl | ⟨he, hlt⟩)
        · exact ⟨.inl rfl, hfirst stop⟩
        · exact ⟨.inr he, hlt⟩
      · rintro ⟨rfl | he, hlt⟩
        · exact .inl rfl
        · exact .inr ⟨he, hlt⟩

theorem findSome?_eq_some_iff_of_sorted {f : String × α → Option β} {b : β} :
    l.findSome? f = some b ↔
      ∃ e ∈ l, f e = some b ∧ ∀ other ∈ l, other.1 < e.1 → f other = none := by
  constructor
  · intro h
    obtain ⟨before, e, after, rfl, he, hbefore⟩ := List.findSome?_eq_some_iff.1 h
    obtain ⟨-, hafter, -⟩ := List.pairwise_append.1 hsorted
    refine ⟨e, by simp, he, fun other hother hlt => ?_⟩
    rcases List.mem_append.1 hother with hother | hother
    · exact hbefore other hother
    · rcases List.mem_cons.1 hother with rfl | hother
      · exact absurd hlt (String.lt_irrefl _)
      · have hgt := (List.pairwise_cons.1 hafter).1 other hother
        exact absurd (String.lt_trans hlt hgt) (String.lt_irrefl _)
  · rintro ⟨e, hmem, he, hearlier⟩
    obtain ⟨before, after, rfl⟩ := List.append_of_mem hmem
    obtain ⟨-, -, hlt⟩ := List.pairwise_append.1 hsorted
    exact List.findSome?_eq_some_iff.2 ⟨before, e, after, rfl, he, fun other hother =>
      hearlier other (by simp [hother]) (hlt other hother e List.mem_cons_self)⟩

end Sorted

end CodeGauge

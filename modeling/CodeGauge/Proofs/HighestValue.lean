import CodeGauge.Proofs.ValueForm

/-!
# The highest of any numbers

Every number but negative infinity is above negative infinity (`rank_negativeInfinity_lt_of_ne`),
where the search for the highest starts. So the highest of some numbers is one of them as soon as
one is not negative infinity. If all are, none of them is the result: it is zero, as it is for no
numbers at all (`highest_of_numbers`).
-/

namespace CodeGauge

namespace Rollup

open Float.Model

theorem rank_negativeInfinity_lt_of_ne {x : Float} (hx : IsNumber x)
    (hne : x ≠ negativeInfinity) : rank negativeInfinity < rank x := by
  rw [rank, rank, unpack_negativeInfinity]
  rcases hux : x.toModel.unpack with (_ | _) | _ | s | ⟨_ | _, m, e, hm⟩
  case infinity.negative =>
    exact absurd (WholeNumber.eq_of_unpack_eq hx (hux.trans unpack_negativeInfinity.symm)) hne
  case notANumber => exact absurd hux hx
  all_goals simp [key, Prod.Lex.toLex_lt_toLex]

theorem largest_of_negativeInfinity {values : List Float}
    (h : ∀ x ∈ values, x = negativeInfinity) : largest values = 0 := by
  have hfold : values.foldl larger negativeInfinity = negativeInfinity := by
    induction values with
    | nil => rfl
    | cons v vs ih =>
      obtain rfl := h v List.mem_cons_self
      exact ih fun x hx => h x (List.mem_cons_of_mem _ hx)
  rw [largest, hfold]
  rfl

/-- The order of numbers does not matter for the highest, except for the sign of a zero. -/
theorem largest_of_perm {values others : List Float} (h : ∀ x ∈ values, IsNumber x)
    (hp : others.Perm values) :
    largest others == largest values ∧
      (largest others = largest values ∨ largest values == 0) := by
  by_cases hbottom : ∀ x ∈ values, x = negativeInfinity
  · have hothers : ∀ x ∈ others, x = negativeInfinity := fun x hx => hbottom x (hp.mem_iff.1 hx)
    rw [largest_of_negativeInfinity hbottom, largest_of_negativeInfinity hothers]
    exact ⟨rfl, .inl rfl⟩
  · simp only [not_forall] at hbottom
    obtain ⟨v, hv, hne⟩ := hbottom
    have hlt := rank_negativeInfinity_lt_of_ne (h v hv) hne
    have hothers : ∀ x ∈ others, IsNumber x := fun x hx => h x (hp.mem_iff.1 hx)
    obtain ⟨hmem, hge⟩ := largest_of_numbers h ⟨v, hv, hlt⟩
    obtain ⟨hmem', hge'⟩ := largest_of_numbers hothers ⟨v, hp.mem_iff.2 hv, hlt⟩
    -- each of the two is an element of both lists, so neither is below the other
    have hrank : rank (largest others) = rank (largest values) :=
      le_antisymm (hge _ (hp.mem_iff.1 hmem')) (hge' _ (hp.mem_iff.2 hmem))
    refine ⟨(beq_iff_rank_eq (hothers _ hmem') (h _ hmem)).2 hrank, ?_⟩
    rcases eq_of_rank_eq (h _ hmem) hrank.symm with heq | hzero
    · exact .inl heq.symm
    · exact .inr hzero

/-- The highest of some numbers, infinities among them, is one of them and not below any of them,
provided one is not negative infinity; otherwise it is zero. Their order does not matter, except
for the sign of a zero. -/
theorem highest_of_numbers {values : List Float} (h : ∀ x ∈ values, x.isNaN = false) :
    ((∃ x ∈ values, x ≠ negativeInfinity) →
      reduce .highest values ∈ values ∧ ∀ x ∈ values, ¬reduce .highest values < x) ∧
    ((∀ x ∈ values, x = negativeInfinity) → reduce .highest values = 0) ∧
    ∀ others : List Float, others.Perm values →
      reduce .highest others == reduce .highest values ∧
        (reduce .highest others = reduce .highest values ∨ reduce .highest values == 0) := by
  have hnumber : ∀ x ∈ values, IsNumber x := fun x hx =>
    isNumber_of_not_isNaN (Bool.not_eq_true _ ▸ h x hx)
  refine ⟨?_, largest_of_negativeInfinity, fun others => largest_of_perm hnumber⟩
  rintro ⟨v, hv, hne⟩
  obtain ⟨hmem, hge⟩ :=
    largest_of_numbers hnumber ⟨v, hv, rank_negativeInfinity_lt_of_ne (hnumber v hv) hne⟩
  exact ⟨hmem, fun x hx hlt =>
    not_lt.2 (hge x hx) ((lt_iff_rank_lt (hnumber _ hmem) (hnumber x hx)).1 hlt)⟩

theorem highest_of_infinities :
    let values : List Float := [-3, 1 / 0, negativeInfinity, 2.5]
    (∀ x ∈ values, x.isNaN = false) ∧ (∃ x ∈ values, x ≠ negativeInfinity) ∧
      reduce .highest values ∈ values ∧ (∀ x ∈ values, ¬reduce .highest values < x) ∧
      reduce .highest values == 1 / 0 ∧
      reduce .highest values.reverse == reduce .highest values := by
  intro values
  have hnumbers : ∀ x ∈ values, x.isNaN = false := by decide +kernel
  have hne : ∃ x ∈ values, x ≠ negativeInfinity := by decide +kernel
  obtain ⟨hmem, -, hperm⟩ := highest_of_numbers hnumbers
  exact ⟨hnumbers, hne, (hmem hne).1, (hmem hne).2, by decide +kernel,
    (hperm values.reverse values.reverse_perm).1⟩

/-- The highest of negative infinity alone is zero, which is not among the values. -/
theorem highest_of_negativeInfinity :
    let values : List Float := [negativeInfinity]
    (∀ x ∈ values, x.isNaN = false) ∧ values ≠ [] ∧
      ¬∃ x ∈ values, reduce .highest values == x := by
  decide +kernel

end Rollup

end CodeGauge

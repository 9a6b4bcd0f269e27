import Mathlib.Data.Prod.Lex
import CodeGauge.Metric.Rollup
import CodeGauge.Proofs.WholeNumber

/-!
# Rolled up values

Numbers are ordered by sign, exponent and mantissa, so the highest of some numbers is one of them
and none is above it (`largest_of_notNegative`). Counts stay numbers when they become values; as
long as their sum is below `WholeNumber.bound`, their total is the value of the sum
(`total_map_ofNat`).
-/

namespace CodeGauge

namespace Rollup

open Float.Model

/-! ## The order of numbers -/

/-- Where a number stands: first by sign, zero between, infinities outside. -/
def key : UnpackedFloat → ℤ ×ₗ ℤ ×ₗ ℤ
  | .infinity .negative => toLex (-2, toLex (0, 0))
  | .finite .negative m e _ => toLex (-1, toLex (-e, -m))
  | .zero _ | .notANumber => toLex (0, toLex (0, 0))
  | .finite .positive m e _ => toLex (1, toLex (e, m))
  | .infinity .positive => toLex (2, toLex (0, 0))

theorem lt_iff_key_lt {a b : UnpackedFloat} (ha : a ≠ .notANumber) (hb : b ≠ .notANumber) :
    a.lt b ↔ key a < key b := by
  have hlt (o p : Ordering) : o.then p = .lt ↔ o = .lt ∨ o = .eq ∧ p = .lt := by
    cases o <;> simp
  have hgt (o p : Ordering) : o.then p = .gt ↔ o = .gt ∨ o = .eq ∧ p = .gt := by
    cases o <;> simp
  rcases a with (_ | _) | _ | (_ | _) | ⟨_ | _, m, e, hm⟩ <;>
    rcases b with (_ | _) | _ | (_ | _) | ⟨_ | _, m', e', hm'⟩ <;>
    simp_all [UnpackedFloat.lt, UnpackedFloat.compare, key, Prod.Lex.toLex_lt_toLex,
      Int.compare_eq_lt, Int.compare_eq_gt, Nat.compare_eq_lt, Nat.compare_eq_gt]
  rfl

section Order

variable {a b : UnpackedFloat} (ha : a ≠ .notANumber) (hb : b ≠ .notANumber)

include ha hb

theorem beq_iff_key_eq : a.beq b ↔ key a = key b := by
  have heq (o p : Ordering) : o.then p = .eq ↔ o = .eq ∧ p = .eq := by
    cases o <;> simp
  rcases a with (_ | _) | _ | (_ | _) | ⟨_ | _, m, e, hm⟩ <;>
    rcases b with (_ | _) | _ | (_ | _) | ⟨_ | _, m', e', hm'⟩ <;>
    simp_all [UnpackedFloat.beq, UnpackedFloat.compare, key, Ordering.swap_eq_eq]
  all_goals rfl

theorem le_iff_key_le : a.le b ↔ key a ≤ key b := by
  have hle : a.le b ↔ a.lt b ∨ a.beq b := by
    rw [UnpackedFloat.le, UnpackedFloat.lt, UnpackedFloat.beq]
    rcases a.compare b with _ | (_ | _ | _) <;> decide
  rw [hle, lt_iff_key_lt ha hb, beq_iff_key_eq ha hb, le_iff_lt_or_eq]

end Order

/-- Whether a value is a number. -/
def IsNumber (x : Float) : Prop := x.toModel.unpack ≠ .notANumber

theorem isNumber_of_not_isNaN {x : Float} (h : ¬x.isNaN) : IsNumber x := by
  intro hx
  have hnan : x.toModel.unpack.isNaN = true := by
    rw [hx]
    rfl
  exact h hnan

/-- Where the number of a value stands. -/
def rank (x : Float) : ℤ ×ₗ ℤ ×ₗ ℤ := key x.toModel.unpack

theorem lt_iff_unpack_lt {x y : Float} : x < y ↔ x.toModel.unpack.lt y.toModel.unpack := by
  show decide _ = true ↔ _
  rw [decide_eq_true_eq]
  exact Iff.rfl

theorem lt_iff_rank_lt {x y : Float} (hx : IsNumber x) (hy : IsNumber y) :
    x < y ↔ rank x < rank y := by
  rw [lt_iff_unpack_lt, lt_iff_key_lt hx hy, rank, rank]

section Rank

variable {x y : Float}

theorem isNumber_of_le (h : x ≤ y) : IsNumber x ∧ IsNumber y := by
  have hle : x.toModel.unpack.le y.toModel.unpack := of_decide_eq_true h
  constructor
  · intro hx
    rw [hx] at hle
    cases hle
  · intro hy
    rw [hy] at hle
    cases hx : x.toModel.unpack <;> rw [hx] at hle <;> cases hle

theorem le_iff_rank_le (hx : IsNumber x) (hy : IsNumber y) : x ≤ y ↔ rank x ≤ rank y := by
  rw [rank, rank, ← le_iff_key_le hx hy]
  show decide _ = true ↔ _
  rw [decide_eq_true_eq]
  exact Iff.rfl

theorem beq_iff_rank_eq (hx : IsNumber x) (hy : IsNumber y) : x == y ↔ rank x = rank y := by
  rw [rank, rank, ← beq_iff_key_eq hx hy]
  exact Iff.rfl

end Rank

/-! ## The highest -/

theorem isNumber_larger {x y : Float} (hx : IsNumber x) (hy : IsNumber y) :
    IsNumber (larger x y) := by
  unfold larger
  split <;> assumption

theorem rank_larger {x y : Float} (hx : IsNumber x) (hy : IsNumber y) :
    rank (larger x y) = max (rank x) (rank y) := by
  unfold larger
  split
  · rename_i h
    rw [max_eq_right ((lt_iff_rank_lt hx hy).1 h).le]
  · rename_i h
    rw [max_eq_left (not_lt.1 fun hlt => h ((lt_iff_rank_lt hx hy).2 hlt))]

/-- Going through numbers from a first one, the larger of two each time, ends at one of them that
stands nowhere below another. -/
theorem foldl_larger (values : List Float) (hvalues : ∀ x ∈ values, IsNumber x) :
    ∀ top, IsNumber top →
      (values.foldl larger top = top ∨ values.foldl larger top ∈ values) ∧
      rank top ≤ rank (values.foldl larger top) ∧
      ∀ x ∈ values, rank x ≤ rank (values.foldl larger top) := by
  induction values with
  | nil => intro top _; simp
  | cons v vs ih =>
    intro top htop
    have hv := hvalues v List.mem_cons_self
    obtain ⟨hmem, htop', hvs⟩ := ih (fun x hx => hvalues x (List.mem_cons_of_mem _ hx))
      (larger top v) (isNumber_larger htop hv)
    rw [rank_larger htop hv, max_le_iff] at htop'
    rw [List.foldl_cons]
    refine ⟨?_, htop'.1, ?_⟩
    · rcases hmem with hmem | hmem
      · rw [hmem, larger]
        split <;> simp
      · exact .inr (List.mem_cons_of_mem _ hmem)
    · intro x hx
      rcases List.mem_cons.1 hx with rfl | hx
      · exact htop'.2
      · exact hvs x hx

theorem unpack_negativeInfinity :
    negativeInfinity.toModel.unpack = .infinity .negative := by rfl

theorem isNumber_negativeInfinity : IsNumber negativeInfinity := by
  rw [IsNumber, unpack_negativeInfinity]
  simp

/-- The highest of some numbers, one of which is above negative infinity, is one of them, and none
is above it. -/
theorem largest_of_numbers {values : List Float} (h : ∀ x ∈ values, IsNumber x)
    (hv : ∃ v ∈ values, rank negativeInfinity < rank v) :
    largest values ∈ values ∧ ∀ x ∈ values, rank x ≤ rank (largest values) := by
  obtain ⟨v, hv, hlt⟩ := hv
  obtain ⟨hmem, -, hge⟩ := foldl_larger values h negativeInfinity isNumber_negativeInfinity
  have habove := hlt.trans_le (hge v hv)
  have hmem : values.foldl larger negativeInfinity ∈ values :=
    hmem.resolve_left fun hbottom => habove.ne (congrArg rank hbottom.symm)
  have hne : ¬(values.foldl larger negativeInfinity == negativeInfinity) := by
    rw [beq_iff_rank_eq (h _ hmem) isNumber_negativeInfinity]
    exact habove.ne'
  have hlargest : largest values = values.foldl larger negativeInfinity := if_neg hne
  rw [hlargest]
  exact ⟨hmem, hge⟩

section NotNegative

open WholeNumber

variable {x : Float} (h : NotNegative x.toModel.unpack)

include h

theorem isNumber_of_notNegative : IsNumber x := by
  intro hx
  rw [hx] at h
  exact h

theorem rank_negativeInfinity_lt : rank negativeInfinity < rank x := by
  rw [rank, rank, unpack_negativeInfinity]
  rcases hx : x.toModel.unpack with s | _ | s | ⟨s, m, e, hm⟩ <;> rw [hx] at h
  · obtain rfl : s = .positive := h
    decide
  · exact h.elim
  · exact Prod.Lex.toLex_lt_toLex.2 (.inl (show (-2 : ℤ) < 0 by decide))
  · obtain rfl : s = .positive := h
    exact Prod.Lex.toLex_lt_toLex.2 (.inl (show (-2 : ℤ) < 1 by decide))

end NotNegative

/-- The highest of some numbers that are not negative is one of them, and none is above it. -/
theorem largest_of_notNegative {values : List Float} (hne : values ≠ [])
    (h : ∀ x ∈ values, WholeNumber.NotNegative x.toModel.unpack) :
    largest values ∈ values ∧ ∀ x ∈ values, ¬largest values < x := by
  have hnumber (x : Float) (hx : x ∈ values) : IsNumber x := isNumber_of_notNegative (h x hx)
  obtain ⟨v, hv⟩ := List.exists_mem_of_ne_nil values hne
  obtain ⟨hmem, hge⟩ := largest_of_numbers hnumber ⟨v, hv, rank_negativeInfinity_lt (h v hv)⟩
  refine ⟨hmem, fun x hx => ?_⟩
  rw [lt_iff_rank_lt (hnumber _ hmem) (hnumber x hx), not_lt]
  exact hge x hx

/-! ## The sum -/

theorem foldl_add_ofNat (ns : List Nat) :
    ∀ first, first + ns.sum < WholeNumber.bound →
      (ns.map Float.ofNat).foldl (· + ·) (Float.ofNat first) = Float.ofNat (first + ns.sum) := by
  induction ns with
  | nil => intro first _; simp
  | cons n ns ih =>
    intro first h
    rw [List.sum_cons, ← Nat.add_assoc] at h ⊢
    rw [List.map_cons, List.foldl_cons, WholeNumber.ofNat_add_ofNat (by omega), ih _ h]

/-- The total of counts is the value of their sum; of no counts it is negative zero, which is equal
to zero. -/
theorem total_map_ofNat {ns : List Nat} (h : ns.sum < WholeNumber.bound) :
    total (ns.map Float.ofNat) == Float.ofNat ns.sum := by
  cases ns with
  | nil => rfl
  | cons n ns =>
    rw [List.sum_cons] at h ⊢
    have htotal : total ((n :: ns).map Float.ofNat) = Float.ofNat (n + ns.sum) := by
      rw [total, List.map_cons, List.foldl_cons, WholeNumber.neg_zero_add_ofNat (by omega),
        foldl_add_ofNat ns n h]
    rw [htotal]
    exact (WholeNumber.ofNat_beq_ofNat h h).2 rfl

/-- The highest of some counts is the value of the largest of them. -/
theorem largest_map_ofNat {ns : List Nat} (hne : ns ≠ []) :
    ∃ n ∈ ns, largest (ns.map Float.ofNat) = Float.ofNat n ∧
      (∀ m ∈ ns, ¬Float.ofNat n < Float.ofNat m) ∧
      ((∀ m ∈ ns, m < WholeNumber.bound) → ∀ m ∈ ns, m ≤ n) := by
  have hnotNegative : ∀ x ∈ ns.map Float.ofNat, WholeNumber.NotNegative x.toModel.unpack := by
    simpa using fun n _ => WholeNumber.notNegative_ofNat n
  obtain ⟨hmem, hge⟩ := largest_of_notNegative (by simpa using hne) hnotNegative
  obtain ⟨n, hn, hlargest⟩ := List.mem_map.1 hmem
  have hge (m : Nat) (hm : m ∈ ns) : ¬Float.ofNat n < Float.ofNat m := by
    rw [hlargest]
    exact hge _ (List.mem_map_of_mem hm)
  refine ⟨n, hn, hlargest.symm, hge, fun hbound m hm => ?_⟩
  have := hge m hm
  rw [WholeNumber.ofNat_lt_ofNat (hbound n hn) (hbound m hm)] at this
  omega

end Rollup

end CodeGauge

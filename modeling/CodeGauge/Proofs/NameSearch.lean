import Mathlib.Data.Nat.Init
import CodeGauge.Proofs.FreshName
import CodeGauge.Proofs.Lowered

/-!
# The search for a name ends

A name is looked for along a row that has no end: the name itself, then the name with 1, 2, 3 and so
on behind it (`attempt`). `Search` is the search as it is made, with no bound on its attempts. The
names of the row are pairwise different, also when the name has dollar signs of its own, so the
taken names bar only so many of them (`le_size_of_attempts`). The search therefore ends, and what it
ends with is what `free` gives, which searches with a bound (`search_iff`).
-/

namespace CodeGauge

namespace TakenNames

/-- What is tried after so many taken names: the name, and then the name with an ordinal. -/
def attempt (name : String) : Nat → String
  | 0 => name
  | k + 1 => numbered name (k + 1)

/-- The search of a name from an attempt on, with the name it ends with and the names taken then:
one that is not taken is taken now, and after one that is taken already the next is tried. -/
inductive Search (taken : TakenNames) (name : String) : Nat → String × TakenNames → Prop
  | found {k : Nat} (h : attempt name k ∉ taken) :
    Search taken name k (attempt name k, taken.insert (attempt name k))
  | passed {k : Nat} {outcome : String × TakenNames} (h : attempt name k ∈ taken)
    (later : Search taken name (k + 1) outcome) : Search taken name k outcome

theorem numbered_ne_self (name : String) (k : Nat) : numbered name k ≠ name := by
  intro h
  have hlength := congrArg String.length h
  rw [numbered, String.length_append, String.length_append] at hlength
  have : "$".length = 1 := rfl
  omega

theorem attempt_injective (name : String) : Function.Injective (attempt name)
  | 0, 0, _ => rfl
  | 0, k + 1, h => absurd h.symm (numbered_ne_self name (k + 1))
  | j + 1, 0, h => absurd h (numbered_ne_self name (j + 1))
  | _ + 1, _ + 1, h => numbered_injective name h

variable (taken : TakenNames) (name : String)

/-- Only as many attempts as there are taken names can be in vain. -/
theorem le_size_of_attempts {k : Nat} (h : ∀ j, j < k → attempt name j ∈ taken) :
    k ≤ taken.size := by
  have hsub : (List.range k).map (attempt name) ⊆ taken.toList := by
    intro x hx
    obtain ⟨j, hj, rfl⟩ := List.mem_map.1 hx
    exact Std.TreeSet.mem_toList.2 (h j (List.mem_range.1 hj))
  have hcount := List.Nodup.length_le_of_subset
    (List.nodup_range.map (attempt_injective name)) hsub
  rwa [List.length_map, List.length_range, Std.TreeSet.length_toList] at hcount

/-- What is given out is the first attempt that is not in vain. -/
theorem free_eq_attempt :
    ∃ k, taken.free name = attempt name k ∧ attempt name k ∉ taken ∧
      ∀ j, j < k → attempt name j ∈ taken := by
  by_cases h : name ∈ taken
  · obtain ⟨hfrom, hpassed, -⟩ := firstFree_spec taken name taken.size 1
    obtain ⟨k, hk⟩ := Nat.exists_eq_add_of_le' hfrom
    refine ⟨k + 1, ?_, ?_, ?_⟩
    · rw [free, if_pos (Std.TreeSet.contains_iff_mem.2 h), hk]
      rfl
    · rw [attempt, ← hk]
      exact numbered_firstFree_notMem taken name
    · rintro (_ | j) hj
      · exact h
      · exact hpassed (j + 1) (by omega) (by omega)
  · refine ⟨0, ?_, h, fun j hj => absurd hj (Nat.not_lt_zero j)⟩
    rw [free, if_neg fun hc => h (Std.TreeSet.contains_iff_mem.1 hc)]
    rfl

variable {taken name}

/-- From any attempt up to the first that is not in vain, the search ends there. -/
theorem search_of_first {k : Nat} (hk : attempt name k ∉ taken) {j : Nat} (hj : j ≤ k)
    (h : ∀ i, j ≤ i → i < k → attempt name i ∈ taken) :
    Search taken name j (attempt name k, taken.insert (attempt name k)) := by
  induction hj using Nat.decreasingInduction with
  | self => exact .found hk
  | of_succ j hj ih =>
    exact .passed (h j (Nat.le_refl j) hj) (ih fun i hi => h i (Nat.le_of_succ_le hi))

theorem Search.unique {k : Nat} {outcome outcome' : String × TakenNames}
    (h : Search taken name k outcome) (h' : Search taken name k outcome') :
    outcome = outcome' := by
  induction h with
  | found hfree =>
    cases h' with
    | found => rfl
    | passed hin => exact absurd hin hfree
  | passed hin _ ih =>
    cases h' with
    | found hfree => exact absurd hin hfree
    | passed _ later => exact ih later

variable (taken name)

/-- The search ends, and with nothing but the name that `free` gives, taken now. -/
theorem search_iff (outcome : String × TakenNames) :
    Search taken name 0 outcome ↔ outcome = (taken.free name, taken.insert (taken.free name)) := by
  obtain ⟨k, hk, hfree, hpassed⟩ := free_eq_attempt taken name
  have hends : Search taken name 0 (taken.free name, taken.insert (taken.free name)) := by
    rw [hk]
    exact search_of_first hfree (Nat.zero_le k) fun i _ hi => hpassed i hi
  exact ⟨fun h => h.unique hends, fun h => h ▸ hends⟩

theorem free_of_taken (h : name ∈ taken) :
    ∃ k, 1 ≤ k ∧ k ≤ taken.size ∧ taken.free name = numbered name k ∧
      numbered name k ∉ taken ∧ ∀ j, 1 ≤ j → j < k → numbered name j ∈ taken := by
  obtain ⟨_ | k, hk, hfree, hpassed⟩ := free_eq_attempt taken name
  · exact absurd h hfree
  · refine ⟨k + 1, Nat.le_add_left 1 k, le_size_of_attempts taken name hpassed, hk, hfree, ?_⟩
    rintro (_ | j) hj hlt
    · omega
    · exact hpassed (j + 1) hlt

/-- The search for a name, which has no bound, ends for all taken names: with the name itself if it
is not taken, and otherwise with the name numbered by the least ordinal from one on that makes it
free. What it ends with was not taken before and is the only name taken besides afterwards, and that
is what entering a site that asks for the name does. -/
theorem search_gives_first_free :
    (∀ outcome, Search taken name 0 outcome ↔
      outcome = (taken.free name, taken.insert (taken.free name))) ∧
    (name ∉ taken → taken.free name = name) ∧
    (name ∈ taken → ∃ k, 1 ≤ k ∧ k ≤ taken.size ∧ taken.free name = numbered name k ∧
      numbered name k ∉ taken ∧ ∀ j, 1 ≤ j → j < k → numbered name j ∈ taken) ∧
    taken.free name ∉ taken ∧
    (∀ x, x ∈ taken.insert (taken.free name) ↔ x = taken.free name ∨ x ∈ taken) ∧
    ∀ (file : SourceFile) (scopes : List String) (s : Site),
      Lowering.wanted? file scopes.head? s = some name →
        (Lowering.enter file scopes taken s).2 = taken.insert (taken.free name) := by
  refine ⟨search_iff taken name, fun h => ?_, free_of_taken taken name, free_notMem taken name,
    fun x => ?_, fun file scopes s hwanted => ?_⟩
  · rw [free, if_neg fun hc => h (Std.TreeSet.contains_iff_mem.1 hc)]
  · rw [Std.TreeSet.mem_insert, Std.compare_eq_iff_eq, eq_comm]
  · rw [Lowering.enter_eq, Lowering.given, hwanted]
    rfl

end TakenNames

end CodeGauge

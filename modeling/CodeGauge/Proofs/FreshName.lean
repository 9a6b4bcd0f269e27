import Mathlib.Data.List.Nodup
import Std.Data.String.ToNat
import CodeGauge.Grammar.Naming

/-!
# A name given out is a new one

The search for a free ordinal passes over taken names only (`firstFree_spec`). Numbered names with
different ordinals are different, so as many of them as there are taken names, and one more, cannot
all be taken, and the search stops at a free one before it runs out of tries
(`numbered_firstFree_notMem`).
-/

namespace CodeGauge

namespace TakenNames

theorem numbered_injective (name : String) : Function.Injective (numbered name) :=
  fun _ _ h => Nat.repr_inj.1 ((String.append_right_inj _).1 h)

variable (taken : TakenNames) (name : String)

/-- The search passes over taken names, and ends on one only when its tries are used up. -/
theorem firstFree_spec : ∀ tries ordinal : Nat,
    ordinal ≤ firstFree taken name tries ordinal ∧
      (∀ j, ordinal ≤ j → j < firstFree taken name tries ordinal → numbered name j ∈ taken) ∧
      (numbered name (firstFree taken name tries ordinal) ∈ taken →
        firstFree taken name tries ordinal = ordinal + tries)
  | 0, ordinal => by
    simp only [firstFree]
    exact ⟨Nat.le_refl _, fun j h1 h2 => by omega, fun _ => rfl⟩
  | tries + 1, ordinal => by
    rw [firstFree]
    split
    · rename_i h
      obtain ⟨hle, hpassed, hend⟩ := firstFree_spec tries (ordinal + 1)
      refine ⟨by omega, fun j h1 h2 => ?_, fun h => by have := hend h; omega⟩
      rcases Nat.eq_or_lt_of_le h1 with rfl | h1
      · exact Std.TreeSet.contains_iff_mem.1 h
      · exact hpassed j h1 h2
    · rename_i h
      exact ⟨Nat.le_refl _, fun j h1 h2 => by omega,
        fun hm => (h (Std.TreeSet.contains_iff_mem.2 hm)).elim⟩

theorem numbered_firstFree_notMem :
    numbered name (firstFree taken name taken.size 1) ∉ taken := by
  intro h
  obtain ⟨-, hpassed, hend⟩ := firstFree_spec taken name taken.size 1
  have hlast := hend h
  have hall : (List.range' 1 (taken.size + 1)).map (numbered name) ⊆ taken.toList := by
    intro x hx
    obtain ⟨j, hj, rfl⟩ := List.mem_map.1 hx
    rw [List.mem_range'_1] at hj
    refine Std.TreeSet.mem_toList.2 ?_
    rcases Nat.lt_or_ge j (firstFree taken name taken.size 1) with hlt | hge
    · exact hpassed j hj.1 hlt
    · rwa [show j = firstFree taken name taken.size 1 by omega]
  have hcount := List.Nodup.length_le_of_subset
    ((List.nodup_range' 1).map (numbered_injective name)) hall
  rw [List.length_map, List.length_range', Std.TreeSet.length_toList] at hcount
  omega

/-- What is given out was not taken before. -/
theorem free_notMem : taken.free name ∉ taken := by
  rw [free]
  split
  · exact numbered_firstFree_notMem taken name
  · rename_i h
    exact fun hm => h (Std.TreeSet.contains_iff_mem.2 hm)

end TakenNames

end CodeGauge

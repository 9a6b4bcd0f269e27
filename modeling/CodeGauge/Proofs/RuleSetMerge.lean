import Mathlib.Data.List.Induction
import CodeGauge.Rule.RuleSet

/-!
# Merging rule sets

Rules are told apart by their names. A set that is added loses the rules whose names the kept rules
of earlier sets have. What is kept of some sets has all the names that the sets were made with
(`mem_names_merged`), so a set loses exactly the rules that occur in a set made before it, kept
there or not (`foldl_add`).

A resolution makes a set of each identifier in turn and stops at the first one that makes none. It
therefore ends in the fault of the leftmost such identifier, or in the merged sets of all of them
(`resolveRuleSets_firstOccurrences`).
-/

namespace CodeGauge

namespace RuleSet

/-- The names of the rules of some sets. -/
def names (sets : List RuleSet) : List String := (sets.flatMap (·.rules)).map (·.name)

theorem names_append (sets others : List RuleSet) :
    names (sets ++ others) = names sets ++ names others := by
  rw [names, List.flatMap_append, List.map_append]
  rfl

/-- A set without the rules that other sets have. -/
def beyond (set : RuleSet) (others : List RuleSet) : RuleSet :=
  { set with rules := set.rules.filter fun r => r.name ∉ names others }

/-- Sets as they were made, each without the rules of those before it. -/
def merged (made : List RuleSet) : List RuleSet :=
  made.mapIdx fun i set => set.beyond (made.take i)

theorem merged_append (made : List RuleSet) (set : RuleSet) :
    merged (made ++ [set]) = merged made ++ [set.beyond made] := by
  have hfirst : (made.mapIdx fun i earlier => earlier.beyond ((made ++ [set]).take i)) =
      merged made := by
    refine List.mapIdx_eq_mapIdx_iff.2 fun i hi => ?_
    rw [List.take_append_of_le_length (Nat.le_of_lt hi)]
  rw [merged, List.mapIdx_append, hfirst]
  simp

/-- No name is lost by merging. -/
theorem mem_names_merged (made : List RuleSet) (name : String) :
    name ∈ names (merged made) ↔ name ∈ names made := by
  induction made using List.reverseRecOn with
  | nil => rfl
  | append_singleton made set ih =>
    rw [merged_append, names_append, names_append, List.mem_append, List.mem_append, ih]
    by_cases h : name ∈ names made
    · simp [h]
    · suffices hset : name ∈ names [set.beyond made] ↔ name ∈ names [set] by rw [hset]
      simp only [names, beyond, List.flatMap_singleton, List.mem_map, List.mem_filter]
      constructor
      · rintro ⟨r, ⟨hr, -⟩, hname⟩
        exact ⟨r, hr, hname⟩
      · rintro ⟨r, hr, rfl⟩
        exact ⟨r, ⟨hr, by simpa [names] using h⟩, rfl⟩

theorem rules_merged_subset (made : List RuleSet) :
    (merged made).flatMap (·.rules) ⊆ made.flatMap (·.rules) := by
  induction made using List.reverseRecOn with
  | nil => exact List.Subset.refl _
  | append_singleton made set ih =>
    rw [merged_append, List.flatMap_append, List.flatMap_append, List.flatMap_singleton,
      List.flatMap_singleton]
    exact List.append_subset.2 ⟨List.subset_append_of_subset_left _ ih,
      List.subset_append_of_subset_right _ List.filter_sublist.subset⟩

end RuleSet

namespace RuleSets

open RuleSet

theorem add_merged (made : List RuleSet) (set : RuleSet) :
    (RuleSets.mk (merged made)).add set = ⟨merged (made ++ [set])⟩ := by
  rw [merged_append, add, beyond]
  congr 3
  refine congrArg _ (List.filter_congr fun r _ => ?_)
  have hloaded : (RuleSets.mk (merged made)).allRules.map (·.name) = names (merged made) := rfl
  rw [hloaded, Bool.eq_iff_iff, Bool.not_eq_true', List.contains_eq_mem, decide_eq_false_iff_not,
    mem_names_merged, decide_eq_true_iff]

theorem foldl_add (made : List RuleSet) : made.foldl add ⟨[]⟩ = ⟨merged made⟩ := by
  induction made using List.reverseRecOn with
  | nil => rfl
  | append_singleton made set ih => rw [List.foldl_append, ih, List.foldl_cons, add_merged]; rfl

end RuleSets

section Making

variable (factory : RuleSetFactory)

/-- Adds the set of an identifier. -/
def addMade (sets : RuleSets) (id : String) : Except Failure RuleSets :=
  return sets.add (← factory id)

variable {factory}

theorem foldlM_addMade : ∀ {ids : List String} {made : List RuleSet},
    ids.map factory = made.map .ok → ∀ sets,
      ids.foldlM (addMade factory) sets = .ok (made.foldl RuleSets.add sets)
  | [], [], _, _ => rfl
  | id :: ids, set :: made, h, sets => by
    obtain ⟨hid, hids⟩ := List.cons.inj h
    rw [List.foldlM_cons, addMade, hid]
    exact foldlM_addMade hids (sets.add set)

theorem foldlM_addMade_of_fault {before : List String} {made : List RuleSet}
    (hbefore : before.map factory = made.map .ok) {id : String} {fault : Failure}
    (hid : factory id = .error fault) (after : List String) (sets : RuleSets) :
    (before ++ id :: after).foldlM (addMade factory) sets = .error fault := by
  rw [List.foldlM_append, foldlM_addMade hbefore]
  show (id :: after).foldlM (addMade factory) _ = _
  rw [List.foldlM_cons, addMade, hid]
  rfl

/-- Either every identifier makes a set, or there is a leftmost one that makes none. -/
theorem made_or_fault (factory : RuleSetFactory) : ∀ ids : List String,
    (∃ made : List RuleSet, ids.map factory = made.map .ok) ∨
      ∃ before id after, ids = before ++ id :: after ∧
        (∃ made : List RuleSet, before.map factory = made.map .ok) ∧
          ∃ fault, factory id = .error fault
  | [] => .inl ⟨[], rfl⟩
  | id :: ids => by
    cases hid : factory id with
    | error fault => exact .inr ⟨[], id, ids, rfl, ⟨[], rfl⟩, fault, hid⟩
    | ok set =>
      rcases made_or_fault factory ids with
        ⟨made, hmade⟩ | ⟨before, bad, after, rfl, ⟨made, hmade⟩, hbad⟩
      · exact .inl ⟨set :: made, by rw [List.map_cons, hid, hmade, List.map_cons]⟩
      · exact .inr ⟨id :: before, bad, after, rfl,
          ⟨set :: made, by rw [List.map_cons, hid, hmade, List.map_cons]⟩, hbad⟩

theorem resolveRuleSets_of_made {list : String} {made : List RuleSet}
    (h : (identifiers list).map factory = made.map .ok) :
    resolveRuleSets list factory =
      if (RuleSet.merged made).flatMap (·.rules) = [] then .error (.noRules list)
      else .ok ⟨RuleSet.merged made⟩ := by
  have hfold := foldlM_addMade h ⟨[]⟩
  rw [RuleSets.foldl_add] at hfold
  have hcount : (RuleSets.mk (RuleSet.merged made)).ruleCount = 0 ↔
      (RuleSet.merged made).flatMap (·.rules) = [] := List.length_eq_zero_iff
  rw [resolveRuleSets]
  show ((identifiers list).foldlM (addMade factory) ⟨[]⟩ >>= _) = _
  rw [hfold]
  exact if_congr hcount rfl rfl

theorem resolveRuleSets_of_fault {list : String} {before after : List String} {id : String}
    (hlist : identifiers list = before ++ id :: after) {made : List RuleSet}
    (hbefore : before.map factory = made.map .ok) {fault : Failure}
    (hid : factory id = .error fault) : resolveRuleSets list factory = .error fault := by
  have hfold := foldlM_addMade_of_fault hbefore hid after ⟨[]⟩
  rw [← hlist] at hfold
  rw [resolveRuleSets]
  show ((identifiers list).foldlM (addMade factory) ⟨[]⟩ >>= _) = _
  rw [hfold]
  rfl

end Making

/-- A resolution fails with the fault of the leftmost identifier that makes no rule set. If each
makes one, it has a set for each of them in their order, with exactly the rules whose names occur in
no set made before; it fails for lack of rules, naming the list as given, if there are none. -/
theorem resolveRuleSets_firstOccurrences (list : String) (factory : RuleSetFactory) :
    (∃ before id after fault, identifiers list = before ++ id :: after ∧
      (∃ made : List RuleSet, before.map factory = made.map .ok) ∧ factory id = .error fault ∧
        resolveRuleSets list factory = .error fault) ∨
    ∃ made : List RuleSet, (identifiers list).map factory = made.map .ok ∧
      resolveRuleSets list factory =
        if (RuleSet.merged made).flatMap (·.rules) = [] then .error (.noRules list)
        else .ok ⟨RuleSet.merged made⟩ := by
  rcases made_or_fault factory (identifiers list) with
    ⟨made, hmade⟩ | ⟨before, id, after, hlist, ⟨made, hbefore⟩, fault, hid⟩
  · exact .inr ⟨made, hmade, resolveRuleSets_of_made hmade⟩
  · exact .inl ⟨before, id, after, fault, hlist, ⟨made, hbefore⟩, hid,
      resolveRuleSets_of_fault hlist hbefore hid⟩

end CodeGauge

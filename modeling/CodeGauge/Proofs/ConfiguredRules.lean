import Mathlib.Data.List.Nodup
import CodeGauge.Proofs.DeclaredProperties
import CodeGauge.Proofs.RuleSetMerge
import CodeGauge.Proofs.SplitText

/-!
# Rules as they are configured

Bundled rules have different names, and configuring a rule keeps its name, so the name of a resolved
rule tells which bundled rule it was and which properties it was given. `Bundle.ruleNamed?` is that
reading; every rule of every resolution is what it gives for the rule's name
(`ruleNamed?_of_factory`).

A set made for some priority is the set made for the lowest one without the less important rules
(`factory_upTo`). Since two rules of one name are the same rule, dropping those before merging is
the same as dropping them afterwards (`merged_upTo`): a rule that was too unimportant for an early
set is too unimportant for a later one.
-/

namespace CodeGauge

/-! ## Configuring keeps the name -/

theorem ok_of_map {ε α β : Type} {x : Except ε α} {f : α → β} {b : β}
    (h : x.map f = .ok b) : ∃ a, x = .ok a ∧ f a = b := by
  cases x with
  | error e => cases h
  | ok a => exact ⟨a, rfl, Except.ok.inj h⟩

theorem ok_of_bind {ε α β : Type} {x : Except ε α} {f : α → Except ε β} {b : β}
    (h : (x >>= f) = .ok b) : ∃ a, x = .ok a ∧ f a = .ok b := by
  cases x with
  | error e => cases h
  | ok a => exact ⟨a, rfl, h⟩

namespace Rule

theorem name_withPriority (priority : Priority) (r : Rule) :
    (r.withPriority priority).name = r.name := by
  cases r <;> rfl

end Rule

namespace Bundle

theorem name_configure : ∀ {properties : List (String × PropertyValue)} {r s : Rule},
    configure r properties = .ok (some s) → s.name = r.name
  | [], r, s, h => by
    cases h
    rfl
  | (property, value) :: rest, r, s, h => by
    unfold configure at h
    split at h
    · split at h
      · exact name_configure h
      · cases h
      · cases h
    · split at h
      · split at h
        · exact (name_configure h).trans (Rule.name_withPriority _ r)
        · cases h
      · obtain ⟨t, ht, h⟩ := ok_of_bind h
        exact (name_configure h).trans (Rule.name_setProperty ht)

/-! ## Rules by name -/

def bundled : List Rule := designRules ++ metricRules

theorem nodup_names_bundled : (bundled.map (·.name)).Nodup := by decide

variable (tables : Std.TreeMap String RuleProperties)

/-- The bundled rule of a name with the properties given to it, if they are right and leave it
on. -/
def ruleNamed? (name : String) : Option Rule :=
  (bundled.find? (·.name = name)).bind fun r =>
    (configure r (tables.getD name ∅).toList).toOption.join

theorem ruleNamed?_of_configure {r s : Rule} (hr : r ∈ bundled)
    (hs : configure r (tables.getD r.name ∅).toList = .ok (some s)) :
    ruleNamed? tables s.name = some s := by
  rw [name_configure hs]
  have hfind : bundled.find? (·.name = r.name) = some r := by
    have hall : ∀ r ∈ bundled, bundled.find? (·.name = r.name) = some r := by decide
    exact hall r hr
  rw [ruleNamed?, hfind, Option.bind_some, hs]
  rfl

theorem rules?_sublist {set : String} {rules : List Rule} (h : rules? set = some rules) :
    rules.Sublist bundled := by
  unfold rules? at h
  split at h <;> cases h
  · exact List.sublist_append_left _ _
  · exact List.sublist_append_right _ _
  · exact .refl _

theorem named?_sublist {identifier : String} {rules : List Rule}
    (h : named? identifier = some rules) : rules.Sublist bundled := by
  unfold named? at h
  simp only [] at h
  split at h
  · exact rules?_sublist h
  · obtain ⟨set, hset, h⟩ := Option.bind_eq_some_iff.1 h
    obtain ⟨r, hr, h⟩ := Option.bind_eq_some_iff.1 h
    cases h
    exact (List.singleton_sublist.2 (List.mem_of_find?_eq_some hr)).trans (rules?_sublist hset)

theorem mem_finish {b : Bundle} : ∀ {rules kept : List Rule}, b.finish rules = .ok kept →
    ∀ s ∈ kept, ∃ r ∈ rules, configure r (b.properties.getD r.name ∅).toList = .ok (some s)
  | [], _, h, s, hs => by
    cases h
    cases hs
  | r :: rules, _, h, s, hs => by
    obtain ⟨configured, hconfigured, h⟩ := ok_of_bind h
    obtain ⟨rest, hrest, h⟩ := ok_of_bind h
    cases h
    rcases List.mem_append.1 hs with hs | hs
    · obtain rfl := Option.mem_toList.1 (List.mem_filter.1 hs).1
      exact ⟨r, List.mem_cons_self, hconfigured⟩
    · obtain ⟨t, ht, hs⟩ := mem_finish hrest s hs
      exact ⟨t, List.mem_cons_of_mem _ ht, hs⟩

theorem names_finish_sublist {b : Bundle} : ∀ {rules kept : List Rule},
    b.finish rules = .ok kept → (kept.map (·.name)).Sublist (rules.map (·.name))
  | [], _, h => by
    cases h
    exact .refl _
  | r :: rules, _, h => by
    obtain ⟨configured, hconfigured, h⟩ := ok_of_bind h
    obtain ⟨rest, hrest, h⟩ := ok_of_bind h
    cases h
    have hhead : ((configured.toList.filter (·.priority.level ≤ b.minPriority.level)).map
        (·.name)).Sublist [r.name] := by
      refine (List.filter_sublist.map _).trans ?_
      cases configured with
      | none => exact List.nil_sublist _
      | some s => rw [← name_configure hconfigured]; exact .refl _
    rw [List.map_append]
    exact hhead.append (names_finish_sublist hrest)

end Bundle

/-! ## Less important rules -/

theorem Priority.level_le_low (p : Priority) : p.level ≤ Priority.low.level := by
  cases p <;> decide

namespace RuleSet

/-- A set without the rules that are less important than a priority. -/
def upTo (p : Priority) (set : RuleSet) : RuleSet :=
  { set with rules := set.rules.filter (·.priority.level ≤ p.level) }

end RuleSet

namespace Bundle

variable (tables : Std.TreeMap String RuleProperties)

theorem finish_upTo (p : Priority) : ∀ rules : List Rule,
    finish ⟨p, tables⟩ rules =
      (finish ⟨.low, tables⟩ rules).map (·.filter (·.priority.level ≤ p.level))
  | [] => rfl
  | r :: rules => by
    rw [finish, finish, finish_upTo p rules]
    cases configure r (tables.getD r.name ∅).toList with
    | error fault => rfl
    | ok configured =>
      cases finish ⟨.low, tables⟩ rules with
      | error fault => rfl
      | ok rest =>
        have hlow : configured.toList.filter (·.priority.level ≤ Priority.low.level) =
            configured.toList :=
          List.filter_eq_self.2 fun s _ => decide_eq_true s.priority.level_le_low
        show Except.ok _ = Except.ok _
        simp only [hlow, List.filter_append]

theorem factory_upTo (p : Priority) (identifier : String) :
    factory ⟨p, tables⟩ identifier =
      (factory ⟨.low, tables⟩ identifier).map (RuleSet.upTo p) := by
  unfold factory
  split
  · rfl
  · rename_i rules _
    rw [finish_upTo]
    cases finish ⟨.low, tables⟩ rules <;> rfl

/-- The rules of a set are bundled rules as their names tell, no two of one name. -/
theorem ruleNamed?_of_factory {b : Bundle} {identifier : String} {set : RuleSet}
    (h : b.factory identifier = .ok set) :
    (set.rules.map (·.name)).Nodup ∧
      ∀ r ∈ set.rules, ruleNamed? b.properties r.name = some r := by
  unfold factory at h
  split at h
  · cases h
  · rename_i rules hrules
    obtain ⟨kept, hkept, h⟩ := ok_of_bind h
    cases h
    have hsub := named?_sublist hrules
    have hfinish : b.finish rules = .ok kept := by
      cases hb : b.finish rules with
      | error fault => rw [hb] at hkept; cases hkept
      | ok rest => rw [hb] at hkept; cases hkept; rfl
    refine ⟨nodup_names_bundled.sublist ((names_finish_sublist hfinish).trans (hsub.map _)), ?_⟩
    intro s hs
    obtain ⟨r, hr, hs⟩ := mem_finish hfinish s hs
    exact ruleNamed?_of_configure b.properties (hsub.subset hr) hs

theorem factory_ne_noRules (b : Bundle) (identifier list : String) :
    b.factory identifier ≠ .error (.noRules list) := by
  unfold factory
  split
  · nofun
  · cases b.finish _ <;> nofun

end Bundle

namespace RuleSet

theorem flatMap_upTo (p : Priority) (sets : List RuleSet) :
    (sets.map (upTo p)).flatMap (·.rules) =
      (sets.flatMap (·.rules)).filter (·.priority.level ≤ p.level) := by
  rw [List.flatMap_map, List.filter_flatMap]
  rfl

theorem beyond_upTo (p : Priority) {made : List RuleSet} {set : RuleSet}
    (h : ∀ q ∈ made.flatMap (·.rules), ∀ r ∈ set.rules, q.name = r.name → q = r) :
    (set.upTo p).beyond (made.map (upTo p)) = (set.beyond made).upTo p := by
  have hnames : ∀ r ∈ set.rules, r.priority.level ≤ p.level →
      (r.name ∈ names (made.map (upTo p)) ↔ r.name ∈ names made) := by
    intro r hr hlevel
    simp only [names, flatMap_upTo, List.mem_map, List.mem_filter, decide_eq_true_eq]
    constructor
    · rintro ⟨q, ⟨hq, -⟩, hname⟩
      exact ⟨q, hq, hname⟩
    · rintro ⟨q, hq, hname⟩
      obtain rfl := h q hq r hr hname
      exact ⟨q, ⟨hq, hlevel⟩, rfl⟩
  unfold beyond upTo
  simp only [List.filter_filter]
  congr 1
  refine List.filter_congr fun r hr => ?_
  by_cases hlevel : r.priority.level ≤ p.level
  · simp [hlevel, ← hnames r hr hlevel]
    rfl
  · simp [hlevel]

/-- If rules of one name are one rule, it does not matter whether the less important ones are
dropped before or after merging. -/
theorem merged_upTo (p : Priority) {made : List RuleSet}
    (h : ∀ q ∈ made.flatMap (·.rules), ∀ r ∈ made.flatMap (·.rules), q.name = r.name → q = r) :
    merged (made.map (upTo p)) = (merged made).map (upTo p) := by
  induction made using List.reverseRecOn with
  | nil => rfl
  | append_singleton made set ih =>
    have hmade : made.flatMap (·.rules) ⊆ (made ++ [set]).flatMap (·.rules) := by simp
    have hset : set.rules ⊆ (made ++ [set]).flatMap (·.rules) := by simp
    rw [List.map_append, List.map_singleton, merged_append, merged_append, List.map_append,
      List.map_singleton, beyond_upTo p fun q hq r hr => h q (hmade hq) r (hset hr),
      ih fun q hq r hr => h q (hmade hq) r (hmade hr)]

theorem nodup_names_merged {made : List RuleSet}
    (h : ∀ set ∈ made, (set.rules.map (·.name)).Nodup) : (names (merged made)).Nodup := by
  induction made using List.reverseRecOn with
  | nil => exact List.nodup_nil
  | append_singleton made set ih =>
    rw [merged_append, names_append]
    refine List.Nodup.append (ih fun other hother => h other (List.mem_append_left _ hother)) ?_ ?_
    · simp only [names, List.flatMap_singleton]
      exact (h set (by simp)).sublist (List.filter_sublist.map _)
    · intro name hname hset
      obtain ⟨r, hr, rfl⟩ := List.mem_map.1 hset
      rw [List.flatMap_singleton, beyond, List.mem_filter] at hr
      exact of_decide_eq_true hr.2 ((mem_names_merged made r.name).1 hname)

end RuleSet

/-! ## Resolutions -/

/-- The rules that a resolution ends with: none if all it lacks is a rule. -/
def resolvedRules : Except Failure RuleSets → Except Failure (List Rule)
  | .ok sets => .ok sets.allRules
  | .error (.noRules _) => .ok []
  | .error fault => .error fault

section Resolution

variable {list : String} {b : Bundle} {made : List RuleSet}
  (h : (identifiers list).map b.factory = made.map .ok)

include h

theorem factory_of_mem_made : ∀ set ∈ made, ∃ identifier, b.factory identifier = .ok set := by
  intro set hset
  have hok : Except.ok set ∈ (identifiers list).map b.factory := h ▸ List.mem_map_of_mem hset
  obtain ⟨identifier, -, hidentifier⟩ := List.mem_map.1 hok
  exact ⟨identifier, hidentifier⟩

theorem ruleNamed?_of_made :
    ∀ r ∈ made.flatMap (·.rules), Bundle.ruleNamed? b.properties r.name = some r := by
  intro r hr
  obtain ⟨set, hset, hr⟩ := List.mem_flatMap.1 hr
  obtain ⟨identifier, hidentifier⟩ := factory_of_mem_made h set hset
  exact (Bundle.ruleNamed?_of_factory hidentifier).2 r hr

theorem eq_of_name_eq {q r : Rule} (hq : q ∈ made.flatMap (·.rules))
    (hr : r ∈ made.flatMap (·.rules)) (hname : q.name = r.name) : q = r := by
  have hboth := ruleNamed?_of_made h q hq
  rw [hname, ruleNamed?_of_made h r hr] at hboth
  exact (Option.some.inj hboth).symm

theorem resolved_of_made {sets : RuleSets} (hsets : resolveRuleSets list b.factory = .ok sets) :
    sets = ⟨RuleSet.merged made⟩ := by
  rw [resolveRuleSets_of_made h] at hsets
  split at hsets
  · cases hsets
  · exact (Except.ok.inj hsets).symm

theorem failed_of_made {fault : Failure} : resolveRuleSets list b.factory = .error fault ↔
    fault = .noRules list ∧ (RuleSet.merged made).flatMap (·.rules) = [] := by
  rw [resolveRuleSets_of_made h]
  split
  · rename_i hnone
    simp [hnone, eq_comm]
  · rename_i hsome
    simp [hsome]

theorem resolvedRules_of_made :
    resolvedRules (resolveRuleSets list b.factory) =
      .ok ((RuleSet.merged made).flatMap (·.rules)) := by
  rw [resolveRuleSets_of_made h]
  split
  · rename_i hnone
    rw [hnone]
    rfl
  · rfl

end Resolution

/-- No two resolved rules have one name, and each is what its name tells. -/
theorem ruleNamed?_of_resolved {list : String} {b : Bundle} {sets : RuleSets}
    (h : resolveRuleSets list b.factory = .ok sets) :
    (sets.allRules.map (·.name)).Nodup ∧
      ∀ r ∈ sets.allRules, Bundle.ruleNamed? b.properties r.name = some r := by
  rcases made_or_fault b.factory (identifiers list) with
    ⟨made, hmade⟩ | ⟨before, id, after, hlist, ⟨made, hbefore⟩, fault, hid⟩
  · obtain rfl := resolved_of_made hmade h
    refine ⟨RuleSet.nodup_names_merged fun set hset => ?_, fun r hr => ?_⟩
    · obtain ⟨identifier, hidentifier⟩ := factory_of_mem_made hmade set hset
      exact (Bundle.ruleNamed?_of_factory hidentifier).1
    · exact ruleNamed?_of_made hmade r (RuleSet.rules_merged_subset made hr)
  · cases (resolveRuleSets_of_fault hlist hbefore hid).symm.trans h

/-- The rule sets that a list makes at some priority are those of the lowest priority without the
less important rules; if one of its identifiers makes none, it makes none at any priority. -/
theorem made_or_fault_upTo (list : String) (tables : Std.TreeMap String RuleProperties) :
    (∃ made : List RuleSet,
      (identifiers list).map (Bundle.factory ⟨.low, tables⟩) = made.map .ok ∧
        ∀ p, (identifiers list).map (Bundle.factory ⟨p, tables⟩) =
          (made.map (RuleSet.upTo p)).map .ok) ∨
    ∃ fault, (∀ named, fault ≠ .noRules named) ∧
      ∀ p, resolveRuleSets list (Bundle.factory ⟨p, tables⟩) = .error fault := by
  have hmade {ids : List String} {made : List RuleSet}
      (h : ids.map (Bundle.factory ⟨.low, tables⟩) = made.map .ok) (p : Priority) :
      ids.map (Bundle.factory ⟨p, tables⟩) = (made.map (RuleSet.upTo p)).map .ok := by
    have hids : ids.map (Bundle.factory ⟨p, tables⟩) =
        (ids.map (Bundle.factory ⟨.low, tables⟩)).map (·.map (RuleSet.upTo p)) := by
      rw [List.map_map]
      exact List.map_congr_left fun id _ => Bundle.factory_upTo tables p id
    rw [hids, h, List.map_map, List.map_map]
    rfl
  rcases made_or_fault (Bundle.factory ⟨.low, tables⟩) (identifiers list) with
    ⟨made, h⟩ | ⟨before, id, after, hlist, ⟨made, hbefore⟩, fault, hid⟩
  · exact .inl ⟨made, h, hmade h⟩
  · refine .inr ⟨fault, fun named hfault => ?_, fun p => ?_⟩
    · exact Bundle.factory_ne_noRules ⟨.low, tables⟩ id named (hfault ▸ hid)
    · refine resolveRuleSets_of_fault hlist (hmade hbefore p) ?_
      rw [Bundle.factory_upTo, hid]
      rfl

/-- A resolved rule is told by its name and the property tables, whatever identifier brought it in,
and no two have one name. A resolution at a priority finds the rules that it finds at the lowest
one, in their order, without the less important ones. It has the same faults, unless there is none
and it fails because no rule is left. -/
theorem resolution_at_priority (list : String) (tables : Std.TreeMap String RuleProperties)
    (p : Priority) :
    let resolved (q : Priority) := resolveRuleSets list (Bundle.factory ⟨q, tables⟩)
    let left := (resolvedRules (resolved .low)).map (·.filter (·.priority.level ≤ p.level))
    (∀ sets, resolved p = .ok sets → (sets.allRules.map (·.name)).Nodup ∧
      ∀ r ∈ sets.allRules, Bundle.ruleNamed? tables r.name = some r) ∧
    resolvedRules (resolved p) = left ∧
    (∀ fault, (resolved p = .error fault ∧ ∀ named, fault ≠ .noRules named) ↔
      resolved .low = .error fault ∧ ∀ named, fault ≠ .noRules named) ∧
    ∀ named, resolved p = .error (.noRules named) ↔ named = list ∧ left = .ok [] := by
  intro resolved left
  rcases made_or_fault_upTo list tables with ⟨made, hlow, hmade⟩ | ⟨fault, hfault, hfailed⟩
  · have hleft : left = .ok ((RuleSet.merged (made.map (RuleSet.upTo p))).flatMap (·.rules)) := by
      rw [RuleSet.merged_upTo p fun q hq r hr => eq_of_name_eq hlow hq hr, RuleSet.flatMap_upTo]
      exact congrArg (Except.map _) (resolvedRules_of_made hlow)
    refine ⟨fun sets => ruleNamed?_of_resolved, ?_, fun fault => ?_, fun named => ?_⟩
    · rw [hleft]
      exact resolvedRules_of_made (hmade p)
    · rw [failed_of_made (hmade p), failed_of_made hlow]
      constructor <;> exact fun h => absurd h.1.1 (h.2 list)
    · rw [hleft, failed_of_made (hmade p)]
      simp
  · have hrules (q : Priority) : resolvedRules (resolved q) = .error fault := by
      rw [show resolved q = .error fault from hfailed q]
      cases fault with
      | noRules named => exact absurd rfl (hfault named)
      | _ => rfl
    have hleft : left = .error fault := congrArg (Except.map _) (hrules .low)
    refine ⟨fun sets => ruleNamed?_of_resolved, (hrules p).trans hleft.symm, fun other => ?_,
      fun named => ?_⟩
    · rw [show resolved p = resolved .low from (hfailed p).trans (hfailed .low).symm]
    · rw [hleft, show resolved p = .error fault from hfailed p]
      simpa using hfault named

/-- The most important rule is the one that counts statements. -/
def urgentStatements : Std.TreeMap String RuleProperties :=
  Std.TreeMap.empty.insert "NcssCount" (Std.TreeMap.empty.insert "priority" (.number 1))

theorem urgent_rule_resolved_once : ∃ sets,
    resolveRuleSets "metrics, all" (Bundle.factory ⟨.high, urgentStatements⟩) = .ok sets ∧
      sets.allRules.map (·.name) = ["NcssCount"] ∧ (sets.allRules.map (·.name)).Nodup ∧
        ∀ r ∈ sets.allRules, Bundle.ruleNamed? urgentStatements r.name = some r := by
  have hnames : (resolveRuleSets "metrics, all" (Bundle.factory ⟨.high, urgentStatements⟩)).map
      (·.allRules.map (·.name)) = .ok ["NcssCount"] := by
    rw [resolveRuleSets, identifiers_eq]
    decide
  obtain ⟨sets, hsets, hnames⟩ := ok_of_map hnames
  exact ⟨sets, hsets, hnames,
    (resolution_at_priority "metrics, all" urgentStatements .high).1 sets hsets⟩

end CodeGauge

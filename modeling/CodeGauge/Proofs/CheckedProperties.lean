import CodeGauge.Proofs.ConfiguredRules
import CodeGauge.Proofs.Lists
import CodeGauge.Proofs.ValueForm

/-!
# Which property tables are rejected

Two properties belong to every rule, besides those that it declares. Applying an entry of a table
changes neither the rule's name nor what it declares, so a table can be judged entry by entry
(`Bundle.fault?`).

Entries are applied in the order of their names until one switches the rule off. A table is rejected
exactly if one of the entries up to there is wrong (`configure_eq_error_iff`); a wrong entry whose
name sorts behind `enabled` goes unseen in the table of a rule that is off.
-/

namespace CodeGauge

/-! ## Priority levels -/

namespace Bundle

theorem priorityOf?_isSome (value : PropertyValue) :
    (priorityOf? value).isSome = Expected.level.admits value := by
  cases value with
  | flag | text | list => rfl
  | number x =>
    by_cases hlevel : Expected.level.admits (.number x) = true
    · rw [hlevel]
      rcases of_decide_eq_true hlevel with rfl | rfl | rfl | rfl | rfl <;> decide +kernel
    · rw [Bool.eq_false_iff.2 hlevel, Option.isSome_eq_false_iff, Option.isNone_iff_eq_none]
      refine if_neg fun h => hlevel ?_
      rw [Bool.and_eq_true, Bool.and_eq_true, decide_eq_true_eq, decide_eq_true_eq] at h
      obtain ⟨n, hlow, hhigh, rfl⟩ :=
        WholeNumber.exists_ofNat_of_isWholeNumber h.1.1 h.1.2 h.2 (by decide)
      interval_cases n <;> decide

/-- The properties that every rule has. -/
def reserved : List (String × Expected) := [("enabled", .flag), ("priority", .level)]

/-- What is wrong with an entry in the table of a rule. -/
def fault? (r : Rule) (property : String) (value : PropertyValue) : Option ConfigFault :=
  ConfigFault.ofEntry? r.name (reserved ++ r.properties) property value

/-- The entry that switches a rule off. -/
def off : String × PropertyValue := ("enabled", .flag false)

theorem fault?_priority (r : Rule) (value : PropertyValue) :
    fault? r "priority" value =
      if Expected.level.admits value then none else some (.wrongShape r.name "priority" .level) :=
  rfl

theorem fault?_of_ne {r : Rule} {property : String} (value : PropertyValue)
    (henabled : property ≠ "enabled") (hpriority : property ≠ "priority") :
    fault? r property value = ConfigFault.ofEntry? r.name r.properties property value := by
  have hlookup : (reserved ++ r.properties).lookup property = r.properties.lookup property := by
    simp [reserved, List.lookup_cons, beq_eq_false_iff_ne.2 henabled,
      beq_eq_false_iff_ne.2 hpriority]
  rw [fault?, ConfigFault.ofEntry?, hlookup]
  rfl

theorem fault?_congr {r s : Rule} (hname : s.name = r.name)
    (hproperties : s.properties = r.properties) : fault? s = fault? r := by
  funext property value
  rw [fault?, fault?, hname, hproperties]

theorem properties_withPriority (priority : Priority) (r : Rule) :
    (r.withPriority priority).properties = r.properties := by
  cases r <;> rfl

/-! ## Tables -/

/-- An entry fails, switches the rule off, or makes a rule that has the same entries wrong. -/
theorem configure_cons (r : Rule) (property : String) (value : PropertyValue)
    (rest : List (String × PropertyValue)) :
    (∃ fault, fault? r property value = some fault ∧
      configure r ((property, value) :: rest) = .error fault) ∨
    (fault? r property value = none ∧ (property, value) = off ∧
      configure r ((property, value) :: rest) = .ok none) ∨
    (fault? r property value = none ∧ (property, value) ≠ off ∧
      ∃ s, fault? s = fault? r ∧ configure r ((property, value) :: rest) = configure s rest) := by
  by_cases henabled : property = "enabled"
  · subst henabled
    rcases value with x | (_ | _) | text | items
    case flag.false => exact .inr (.inl ⟨rfl, rfl, rfl⟩)
    case flag.true => exact .inr (.inr ⟨rfl, by decide, r, rfl, rfl⟩)
    all_goals exact .inl ⟨_, rfl, rfl⟩
  rw [configure.eq_def]
  simp only [if_neg henabled]
  have hoff : (property, value) ≠ off := fun h => henabled (congrArg Prod.fst h)
  by_cases hpriority : property = "priority"
  · subst hpriority
    rw [if_pos rfl, fault?_priority, ← priorityOf?_isSome]
    cases priorityOf? value with
    | none => exact .inl ⟨_, rfl, rfl⟩
    | some priority =>
      exact .inr (.inr ⟨rfl, hoff, _,
        fault?_congr (Rule.name_withPriority priority r) (properties_withPriority priority r), rfl⟩)
  · rw [if_neg hpriority, fault?_of_ne value henabled hpriority]
    have happlied := r.applied_setProperty property value
    cases hfault : ConfigFault.ofEntry? r.name r.properties property value with
    | some fault =>
      rw [hfault] at happlied
      exact .inl ⟨fault, rfl, by rw [show r.setProperty property value = _ from happlied]; rfl⟩
    | none =>
      rw [hfault] at happlied
      obtain ⟨s, hs, hname, hproperties⟩ := happlied
      exact .inr (.inr ⟨rfl, hoff, s, fault?_congr hname hproperties, by rw [hs]; rfl⟩)

/-- A table is rejected for its first wrong entry, unless one before it switches the rule off. -/
theorem configure_eq_error_iff {fault : ConfigFault} :
    ∀ (entries : List (String × PropertyValue)) (r : Rule),
      configure r entries = .error fault ↔
        (entries.takeWhile (· ≠ off)).findSome? (fun e => fault? r e.1 e.2) = some fault
  | [], r => by simp [configure]
  | (property, value) :: rest, r => by
    rcases configure_cons r property value rest with
      ⟨told, hfault, h⟩ | ⟨hfault, hoff, h⟩ | ⟨hfault, hoff, s, hs, h⟩
    · have hoff : (property, value) ≠ off := by
        intro hoff
        cases hoff
        cases hfault
      rw [h, List.takeWhile_cons, if_pos (decide_eq_true hoff), List.findSome?_cons, hfault]
      simp
    · rw [h, hoff, List.takeWhile_cons, if_neg (by simp)]
      simp
    · rw [h, configure_eq_error_iff rest s, hs, List.takeWhile_cons, if_pos (decide_eq_true hoff),
        List.findSome?_cons, hfault]

/-! ## Tables by name -/

/-- What is wrong with the entry of a name, if the table has one. -/
def faultIn? (r : Rule) (table : RuleProperties) (property : String) : Option ConfigFault :=
  table[property]?.bind (fault? r property)

/-- Whether an entry comes before one that switches the rule off. -/
def Reached (table : RuleProperties) (property : String) : Prop :=
  table["enabled"]? = some (.flag false) → property < "enabled"

section Table

variable {r : Rule} {table : RuleProperties}

theorem sorted_toList : table.toList.Pairwise (·.1 < ·.1) :=
  Std.TreeMap.ordered_keys_toList.imp compare_lt_iff_lt.1

theorem mem_reached {property : String} {value : PropertyValue} :
    (property, value) ∈ table.toList.takeWhile (· ≠ off) ↔
      table[property]? = some value ∧ Reached table property := by
  rw [mem_takeWhile_of_sorted sorted_toList, off, Std.TreeMap.mem_toList_iff_getElem?_eq_some,
    Std.TreeMap.mem_toList_iff_getElem?_eq_some]
  rfl

theorem configure_eq_error_iff_first {fault : ConfigFault} :
    configure r table.toList = .error fault ↔
      ∃ property, faultIn? r table property = some fault ∧ Reached table property ∧
        ∀ earlier < property, faultIn? r table earlier = none := by
  rw [configure_eq_error_iff, findSome?_eq_some_iff_of_sorted
    (sorted_toList.sublist (List.takeWhile_sublist _))]
  constructor
  · rintro ⟨⟨property, value⟩, hmem, hfault, hearlier⟩
    obtain ⟨hvalue, hreached⟩ := mem_reached.1 hmem
    refine ⟨property, by rw [faultIn?, hvalue]; exact hfault, hreached, fun earlier hlt => ?_⟩
    rw [faultIn?, Option.bind_eq_none_iff]
    exact fun other hother => hearlier (earlier, other)
      (mem_reached.2 ⟨hother, fun hoff => String.lt_trans hlt (hreached hoff)⟩) hlt
  · rintro ⟨property, hfault, hreached, hearlier⟩
    obtain ⟨value, hvalue, hfault⟩ := Option.bind_eq_some_iff.1 hfault
    refine ⟨(property, value), mem_reached.2 ⟨hvalue, hreached⟩, hfault, ?_⟩
    rintro ⟨earlier, other⟩ hother hlt
    exact Option.bind_eq_none_iff.1 (hearlier earlier hlt) other (mem_reached.1 hother).1

theorem configure_fails_iff :
    (∃ fault, configure r table.toList = .error fault) ↔
      ∃ property, (faultIn? r table property).isSome ∧ Reached table property := by
  simp only [configure_eq_error_iff, ← Option.isSome_iff_exists, List.findSome?_isSome_iff]
  constructor
  · rintro ⟨⟨property, value⟩, hmem, hfault⟩
    obtain ⟨hvalue, hreached⟩ := mem_reached.1 hmem
    exact ⟨property, by rw [faultIn?, hvalue]; exact hfault, hreached⟩
  · rintro ⟨property, hfault, hreached⟩
    obtain ⟨fault, hfault⟩ := Option.isSome_iff_exists.1 hfault
    obtain ⟨value, hvalue, hfault⟩ := Option.bind_eq_some_iff.1 hfault
    exact ⟨(property, value), mem_reached.2 ⟨hvalue, hreached⟩,
      Option.isSome_iff_exists.2 ⟨fault, hfault⟩⟩

end Table

/-! ## Rule sets -/

section Factory

variable {b : Bundle}

theorem finish_fails_iff {rules : List Rule} :
    (∃ fault, b.finish rules = .error fault) ↔
      ∃ r ∈ rules, ∃ fault, configure r (b.properties.getD r.name ∅).toList = .error fault := by
  induction rules with
  | nil => simp [finish]
  | cons r rules ih =>
    rw [List.exists_mem_cons_iff, ← ih, finish]
    cases configure r (b.properties.getD r.name ∅).toList with
    | error fault => exact iff_of_true ⟨fault, rfl⟩ (.inl ⟨fault, rfl⟩)
    | ok configured =>
      cases finish b rules with
      | error fault => exact iff_of_true ⟨fault, rfl⟩ (.inr ⟨fault, rfl⟩)
      | ok rest =>
        refine iff_of_false ?_ ?_
        · rintro ⟨fault, h⟩
          cases h
        · rintro (⟨fault, h⟩ | ⟨fault, h⟩) <;> cases h

theorem factory_fails_iff {identifier : String} :
    (∃ fault, b.factory identifier = .error (.config fault)) ↔
      ∃ rules, named? identifier = some rules ∧ ∃ fault, b.finish rules = .error fault := by
  unfold factory
  cases named? identifier with
  | none => exact iff_of_false nofun nofun
  | some rules =>
    simp only [Option.some.injEq, exists_eq_left']
    cases b.finish rules with
    | error fault => exact iff_of_true ⟨fault, rfl⟩ ⟨fault, rfl⟩
    | ok kept => exact iff_of_false nofun nofun

end Factory

/-- A rule's table is rejected exactly if an entry of it is wrong, other than behind one that
switches the rule off; the fault told is that of the first wrong one by name. Making a rule set
fails with a fault in the configuration exactly if the table of one of its rules is rejected. -/
theorem rejected_iff_wrong_entry (r : Rule) (table : RuleProperties) :
    ((∃ fault, configure r table.toList = .error fault) ↔
      ∃ property, (faultIn? r table property).isSome ∧ Reached table property) ∧
    (∀ fault, configure r table.toList = .error fault ↔
      ∃ property, faultIn? r table property = some fault ∧ Reached table property ∧
        ∀ earlier < property, faultIn? r table earlier = none) ∧
    ∀ (b : Bundle) (identifier : String),
      (∃ fault, b.factory identifier = .error (.config fault)) ↔
        ∃ rules, named? identifier = some rules ∧ ∃ r ∈ rules, ∃ property,
          (faultIn? r (b.properties.getD r.name ∅) property).isSome ∧
            Reached (b.properties.getD r.name ∅) property := by
  refine ⟨configure_fails_iff, fun fault => configure_eq_error_iff_first, fun b identifier => ?_⟩
  simp only [factory_fails_iff, finish_fails_iff, configure_fails_iff]

/-- A misspelt property of a rule that is off goes unseen if its name sorts behind `enabled`, and is
rejected if it sorts before, or once the rule is on. -/
theorem misspelt_property_of_disabled_rule :
    let r := Rule.threshold .ncssCount
    let table (property : String) (on : Bool) : RuleProperties :=
      Std.TreeMap.ofList [("enabled", PropertyValue.flag on), (property, PropertyValue.number 40)]
    r ∈ bundled ∧ faultIn? r (table "minimun" false) "minimun" =
        some (.unknownProperty "NcssCount" "minimun") ∧
      configure r (table "minimun" false).toList = .ok none ∧
      configure r (table "minimun" true).toList =
        .error (.unknownProperty "NcssCount" "minimun") ∧
      configure r (table "class_minimun" false).toList =
        .error (.unknownProperty "NcssCount" "class_minimun") := by
  decide +kernel

end Bundle

end CodeGauge

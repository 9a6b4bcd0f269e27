import Mathlib.Tactic.SplitIfs
import CodeGauge.Rule.Basic

/-!
# The properties that rules declare

Each rule declares properties, with what their values have to be (`Rule.properties`). Setting a
property fails exactly if the rule does not declare it or the value is another one than expected;
otherwise it gives a rule of the same name that declares the same (`Rule.applied_setProperty`).
-/

namespace CodeGauge

/-- Whether a value is what is expected. -/
def Expected.admits : Expected → PropertyValue → Bool
  | .number, .number _ => true
  | .flag, .flag _ => true
  | .text, .text _ => true
  | .level, .number x => decide (x = 1 ∨ x = 2 ∨ x = 3 ∨ x = 4 ∨ x = 5)
  | .optionNames, .list _ => true
  | .optionNames, .text _ => true
  | _, _ => false

namespace ConfigFault

/-- What is wrong with an entry, given the properties that a rule declares. -/
def ofEntry? (rule : String) (declared : List (String × Expected)) (property : String)
    (value : PropertyValue) : Option ConfigFault :=
  match declared.lookup property with
  | none => some (.unknownProperty rule property)
  | some expected =>
    if expected.admits value then none else some (.wrongShape rule property expected)

end ConfigFault

namespace Rule

/-- The properties that a rule declares, with what their values have to be. -/
def properties : Rule → List (String × Expected)
  | count _ => [(minimumProperty, .number)]
  | threshold r =>
    (match r.measured with
      | .complexity _ => [("aggregation", .text)]
      | .statements => []) ++
    [(minimumProperty, .number), ("class_minimum", .number), ("skip_tests", .flag),
      ("options", .optionNames)]

/-- What applying an entry that may be wrong gives: the fault, or a rule of the same name and
properties. -/
def Applied (r : Rule) (fault? : Option ConfigFault) (result : Except ConfigFault Rule) : Prop :=
  match fault? with
  | some fault => result = .error fault
  | none => ∃ s, result = .ok s ∧ s.name = r.name ∧ s.properties = r.properties

section Applied

variable {r : Rule} {declared : List (String × Expected)} {property : String} {expected : Expected}
  {value : PropertyValue}

theorem applied_of_undeclared (h : declared.lookup property = none) :
    r.Applied (ConfigFault.ofEntry? r.name declared property value)
      (.error (.unknownProperty r.name property)) := by
  simp [ConfigFault.ofEntry?, h, Applied]

theorem applied_of_not_admits (h : declared.lookup property = some expected)
    (hvalue : expected.admits value = false) :
    r.Applied (ConfigFault.ofEntry? r.name declared property value)
      (.error (.wrongShape r.name property expected)) := by
  simp [ConfigFault.ofEntry?, h, hvalue, Applied]

theorem applied_of_admits {s : Rule} (h : declared.lookup property = some expected)
    (hvalue : expected.admits value = true) (hname : s.name = r.name)
    (hproperties : s.properties = r.properties) :
    r.Applied (ConfigFault.ofEntry? r.name declared property value) (.ok s) := by
  simp [ConfigFault.ofEntry?, h, hvalue, Applied, hname, hproperties]

end Applied

theorem lookup_properties_threshold (r : ThresholdRule) :
    (threshold r).properties.lookup minimumProperty = some .number ∧
    (threshold r).properties.lookup "class_minimum" = some .number ∧
    (threshold r).properties.lookup "skip_tests" = some .flag ∧
    (threshold r).properties.lookup "options" = some .optionNames := by
  unfold properties
  cases hmeasured : r.measured <;> simp only [hmeasured] <;> decide

theorem applied_setProperty (r : Rule) (property : String) (value : PropertyValue) :
    r.Applied (ConfigFault.ofEntry? r.name r.properties property value)
      (r.setProperty property value) := by
  cases r with
  | count r =>
    rw [setProperty, NodeCountRule.setProperty]
    split_ifs with hminimum
    · have hlookup : (count r).properties.lookup property = some .number := by
        rw [hminimum]
        rfl
      cases value with
      | number x => exact applied_of_admits hlookup rfl rfl rfl
      | flag | text | list => exact applied_of_not_admits hlookup rfl
    · refine applied_of_undeclared (List.lookup_eq_none_iff.2 ?_)
      simpa [properties] using hminimum
  | threshold r =>
    obtain ⟨hminimum, htype, hskip, hoptions⟩ := lookup_properties_threshold r
    rw [setProperty]
    unfold ThresholdRule.setProperty
    split
    · rename_i mode hmeasured
      have hlookup : (threshold r).properties.lookup "aggregation" = some .text := by
        simp [properties, hmeasured]
      cases value with
      | text mode => exact applied_of_admits hlookup rfl rfl (by simp [properties, hmeasured])
      | number | flag | list => exact applied_of_not_admits hlookup rfl
    · cases value with
      | number x => exact applied_of_admits hminimum rfl rfl rfl
      | flag | text | list => exact applied_of_not_admits hminimum rfl
    · cases value with
      | number x => exact applied_of_admits htype rfl rfl rfl
      | flag | text | list => exact applied_of_not_admits htype rfl
    · cases value with
      | flag skip => exact applied_of_admits hskip rfl rfl rfl
      | number | text | list => exact applied_of_not_admits hskip rfl
    · cases value with
      | list items => exact applied_of_admits hoptions rfl rfl rfl
      | text item => exact applied_of_admits hoptions rfl rfl rfl
      | number | flag => exact applied_of_not_admits hoptions rfl
    · refine applied_of_undeclared (List.lookup_eq_none_iff.2 ?_)
      cases hmeasured : r.measured <;> simp_all [properties, minimumProperty]

theorem name_setProperty {r s : Rule} {property : String} {value : PropertyValue}
    (h : r.setProperty property value = .ok s) : s.name = r.name := by
  have happlied := r.applied_setProperty property value
  unfold Applied at happlied
  split at happlied
  · cases h.symm.trans happlied
  · obtain ⟨t, ht, hname, -⟩ := happlied
    cases h.symm.trans ht
    exact hname

end Rule

end CodeGauge

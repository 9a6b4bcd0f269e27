import Mathlib.Data.List.Induction
import CodeGauge.Proofs.DeclaredProperties

/-!
# Calls that set properties

A property can be set in place: the rule changes while the call runs, and what a call that fails has
changed so far stays changed (`assign`). Nothing has: the conversions that can fail come before the
change, so setting in place gives what `setProperty` gives, and leaves the rule as it was where that
fails (`Rule.run_assign`).

A rule is known by its base, which no call changes, and by its settings (`Rule.eq_of_settings`). An
accepted call changes the setting of its property and no other (`Rule.settings_setProperty`). So
what a rule is after some calls depends on the last accepted value of each property only, and calls
that set different properties commute (`Rule.property_calls`).
-/

namespace CodeGauge

/-! ## Setting in place -/

/-- Sets a property in place. -/
def NodeCountRule.assign (property : String) (value : PropertyValue) :
    EStateM ConfigFault NodeCountRule Unit := do
  let r ← get
  if property = minimumProperty then
    set { r with minimum := ← MonadExcept.ofExcept (value.numberFor r.name property) }
  else throw (.unknownProperty r.name property)

namespace ThresholdRule

/-- Sets a property that every threshold rule has, if it is one; tells whether it is. -/
def assignShared (property : String) (value : PropertyValue) :
    EStateM ConfigFault ThresholdRule Bool := do
  let r ← get
  match property with
  | "minimum" =>
    set { r with minimum := ← MonadExcept.ofExcept (value.numberFor r.name property) }
    return true
  | "class_minimum" =>
    set { r with typeMinimum := ← MonadExcept.ofExcept (value.numberFor r.name property) }
    return true
  | "skip_tests" =>
    match value with
    | .flag skip => set { r with skipTests := skip }
    | _ => throw (.wrongShape r.name property .flag)
    return true
  | "options" =>
    match value with
    | .list items => set { r with options := .ofList items }
    | .text item => set { r with options := .ofList [item] }
    | _ => throw (.wrongShape r.name property .optionNames)
    return true
  | _ => return false

/-- Sets a property in place. The roll-up can be set where there is one. -/
def assign (property : String) (value : PropertyValue) :
    EStateM ConfigFault ThresholdRule Unit := do
  let r ← get
  match property, r.measured with
  | "aggregation", .complexity _ =>
    match value with
    | .text mode => set { r with measured := .complexity (Rollup.parse mode) }
    | _ => throw (.wrongShape r.name property .text)
  | _, _ =>
    unless ← assignShared property value do
      throw (.unknownProperty r.name property)

end ThresholdRule

/-- What a call in place gives, if `result` is what it is to give for `r`. -/
def inPlace {σ : Type} (r : σ) : Except ConfigFault σ → EStateM.Result ConfigFault σ Unit
  | .ok s => .ok () s
  | .error fault => .error fault r

theorem NodeCountRule.run_assign (r : NodeCountRule) (property : String) (value : PropertyValue) :
    (assign property value).run r = inPlace r (r.setProperty property value) := by
  unfold assign setProperty
  by_cases h : property = minimumProperty
  · cases value <;> simp [h] <;> rfl
  · simp [h]
    rfl

namespace ThresholdRule

/-- A property is one of those that threshold rules have, or another one. -/
@[elab_as_elim]
theorem property_cases {motive : String → Prop} (aggregation : motive "aggregation")
    (minimum : motive "minimum") (typeMinimum : motive "class_minimum")
    (skipTests : motive "skip_tests") (options : motive "options")
    (other : ∀ p, p ≠ "aggregation" ∧ p ≠ "minimum" ∧ p ≠ "class_minimum" ∧ p ≠ "skip_tests" ∧
      p ≠ "options" → motive p) (p : String) : motive p := by
  by_cases h : p ∈ ["aggregation", "minimum", "class_minimum", "skip_tests", "options"]
  · simp only [List.mem_cons, List.not_mem_nil, or_false] at h
    rcases h with rfl | rfl | rfl | rfl | rfl <;> assumption
  · exact other p (by simpa using h)

theorem run_assign (r : ThresholdRule) (property : String) (value : PropertyValue) :
    (assign property value).run r = inPlace r (r.setProperty property value) := by
  induction property using property_cases with
  -- without a roll-up, there is nothing to aggregate
  | aggregation => rcases r with ⟨name, message, _ | _, _⟩ <;> cases value <;> rfl
  | minimum => cases value <;> rfl
  | typeMinimum => cases value <;> rfl
  | skipTests => cases value <;> rfl
  | options => cases value <;> rfl
  | other property hother =>
    simp [assign, assignShared, setProperty, hother]
    rfl

end ThresholdRule

namespace Rule

/-- Sets a property in place, on the rule inside. -/
def assign (property : String) (value : PropertyValue) : EStateM ConfigFault Rule Unit
  | count r =>
    match (NodeCountRule.assign property value).run r with
    | .ok () s => .ok () (count s)
    | .error fault s => .error fault (count s)
  | threshold r =>
    match (ThresholdRule.assign property value).run r with
    | .ok () s => .ok () (threshold s)
    | .error fault s => .error fault (threshold s)

/-- Setting in place gives the rule that setting gives, and leaves the rule as it was on a fault. -/
theorem run_assign (r : Rule) (property : String) (value : PropertyValue) :
    (assign property value).run r = inPlace r (r.setProperty property value) := by
  cases r with
  | count r =>
    rw [EStateM.run, assign, NodeCountRule.run_assign, setProperty]
    cases r.setProperty property value <;> rfl
  | threshold r =>
    rw [EStateM.run, assign, ThresholdRule.run_assign, setProperty]
    cases r.setProperty property value <;> rfl

end Rule

/-! ## Base and settings -/

/-- What a property is set to. -/
inductive PropertySetting where
  | number (value : Float)
  | flag (value : Bool)
  | rollUp (mode : Rollup)
  | options (options : MetricOptions)

/-- What a value sets a property to, if it is what is expected. -/
def PropertySetting.of? : Expected → PropertyValue → Option PropertySetting
  | .number, .number x => some (.number x)
  | .flag, .flag b => some (.flag b)
  | .text, .text mode => some (.rollUp (Rollup.parse mode))
  | .optionNames, .list items => some (.options (.ofList items))
  | .optionNames, .text item => some (.options (.ofList [item]))
  | _, _ => none

namespace Rule

/-- The kind that a counting rule reports, and how it scores. -/
def counting? : Rule → Option (Kind × Scoring)
  | count r => some (r.target, r.scoring)
  | threshold _ => none

/-- Whether the values of types are rolled up. -/
def rollsUp : Rule → Bool
  | count _ => false
  | threshold r =>
    match r.measured with
    | .complexity _ => true
    | .statements => false

/-- Whether two rules differ in their settings only. -/
structure SameBase (r s : Rule) : Prop where
  name : r.name = s.name
  message : r.message = s.message
  priority : r.priority = s.priority
  counting : r.counting? = s.counting?
  rollsUp : r.rollsUp = s.rollsUp

theorem SameBase.refl (r : Rule) : r.SameBase r := ⟨rfl, rfl, rfl, rfl, rfl⟩

theorem SameBase.trans {r s t : Rule} (h : r.SameBase s) (h' : s.SameBase t) : r.SameBase t :=
  ⟨h.name.trans h'.name, h.message.trans h'.message, h.priority.trans h'.priority,
    h.counting.trans h'.counting, h.rollsUp.trans h'.rollsUp⟩

theorem SameBase.symm {r s : Rule} (h : r.SameBase s) : s.SameBase r :=
  ⟨h.name.symm, h.message.symm, h.priority.symm, h.counting.symm, h.rollsUp.symm⟩

/-- Rules that differ in their settings only declare the same properties. -/
theorem SameBase.properties {r s : Rule} (h : r.SameBase s) : r.properties = s.properties := by
  have hcounting := h.counting
  have hrollsUp := h.rollsUp
  rcases r with r | ⟨_, _, _ | _, _⟩ <;> rcases s with s | ⟨_, _, _ | _, _⟩ <;>
    simp_all [Rule.properties, counting?, Rule.rollsUp]

/-- The properties of a rule, with what they are set to. -/
def settings : Rule → List (String × PropertySetting)
  | count r => [(minimumProperty, .number r.minimum)]
  | threshold r =>
    (match r.measured with
      | .complexity mode => [("aggregation", .rollUp mode)]
      | .statements => []) ++
    [(minimumProperty, .number r.minimum), ("class_minimum", .number r.typeMinimum),
      ("skip_tests", .flag r.skipTests), ("options", .options r.options)]

/-- A rule is its base and its settings. -/
theorem eq_of_settings {r s : Rule} (hbase : r.SameBase s)
    (h : ∀ p, r.settings.lookup p = s.settings.lookup p) : r = s := by
  obtain ⟨hname, hmessage, hpriority, hcounting, hrollsUp⟩ := hbase
  cases r with
  | count r =>
    cases s with
    | threshold s => cases hcounting
    | count s =>
      replace h := h minimumProperty
      cases r
      cases s
      simp_all [settings, name, message, priority, counting?]
  | threshold r =>
    cases s with
    | count s => cases hcounting
    | threshold s =>
      have haggregation := h "aggregation"
      have hminimum := h minimumProperty
      have htype := h "class_minimum"
      have hskip := h "skip_tests"
      have hoptions := h "options"
      rcases r with ⟨_, _, _ | _, _⟩ <;> rcases s with ⟨_, _, _ | _, _⟩
      all_goals
        simp_all [settings, name, message, priority, rollsUp, minimumProperty, List.lookup_cons]

/-- Setting a property keeps the base, sets the property to what the value says, and keeps what the
others are set to. -/
theorem settings_setProperty {r s : Rule} {property : String} {value : PropertyValue}
    (h : r.setProperty property value = .ok s) :
    s.SameBase r ∧
    s.settings.lookup property = (r.properties.lookup property).bind (PropertySetting.of? · value) ∧
    ∀ p, p ≠ property → s.settings.lookup p = r.settings.lookup p := by
  cases r with
  | count r =>
    by_cases hproperty : property = minimumProperty
    · obtain rfl := hproperty
      cases value <;> cases h
      refine ⟨⟨rfl, rfl, rfl, rfl, rfl⟩, ?_, fun p hp => ?_⟩
      · simp [settings, properties, PropertySetting.of?]
      · simp [settings, List.lookup_cons, beq_false_of_ne hp]
    · simp [setProperty, NodeCountRule.setProperty, hproperty, Except.map] at h
  | threshold r =>
    rcases r with ⟨name, message, mode | _, _⟩ <;>
      induction property using ThresholdRule.property_cases with
      | other property hother =>
        simp [setProperty, ThresholdRule.setProperty, hother, Except.map] at h
      | _ =>
        cases value <;> cases h
        all_goals
          refine ⟨?_, ?_, fun p hp => ?_⟩
          · constructor <;>
              simp only [Rule.name, Rule.message, Rule.priority, counting?, Rule.rollsUp]
          · simp [settings, properties, PropertySetting.of?, List.lookup_cons, minimumProperty]
          · simp [settings, List.lookup_cons, beq_false_of_ne hp, minimumProperty]

/-! ## Calls one after the other -/

/-- The fault of a call, if there is one, and the rule after it. -/
def attempt (r : Rule) (call : String × PropertyValue) : Option ConfigFault × Rule :=
  match (assign call.1 call.2).run r with
  | .ok () s => (none, s)
  | .error fault s => (some fault, s)

/-- The rule after some calls. -/
def after (r : Rule) (calls : List (String × PropertyValue)) : Rule :=
  calls.foldl (fun s call => (s.attempt call).2) r

/-- The faults of some calls. -/
def faults (r : Rule) : List (String × PropertyValue) → List (Option ConfigFault)
  | [] => []
  | call :: calls => (r.attempt call).1 :: (r.attempt call).2.faults calls

/-- The value of the last call for a property that is accepted. -/
def lastAccepted? (r : Rule) (calls : List (String × PropertyValue)) (property : String) :
    Option PropertyValue :=
  ((calls.zip (r.faults calls)).reverse.find? fun (call, fault?) =>
    call.1 = property && fault?.isNone).map (·.1.2)

/-- What a rule says of a call. -/
def fault? (r : Rule) (call : String × PropertyValue) : Option ConfigFault :=
  ConfigFault.ofEntry? r.name r.properties call.1 call.2

theorem SameBase.fault? {r s : Rule} (h : r.SameBase s) (call : String × PropertyValue) :
    r.fault? call = s.fault? call := by
  rw [Rule.fault?, Rule.fault?, h.name, h.properties]

/-- A call fails as the rule says, and leaves it, or sets the property. -/
theorem attempt_cases (r : Rule) (call : String × PropertyValue) :
    (∃ fault, r.fault? call = some fault ∧ r.attempt call = (some fault, r)) ∨
    ∃ s, r.fault? call = none ∧ r.attempt call = (none, s) ∧
      r.setProperty call.1 call.2 = .ok s := by
  have happlied : r.Applied (r.fault? call) (r.setProperty call.1 call.2) :=
    r.applied_setProperty call.1 call.2
  rcases hfault : r.fault? call with _ | fault <;> rw [hfault] at happlied
  · obtain ⟨s, hs, -⟩ := happlied
    refine .inr ⟨s, rfl, ?_, hs⟩
    rw [attempt, run_assign, hs]
    rfl
  · refine .inl ⟨fault, rfl, ?_⟩
    rw [attempt, run_assign, show r.setProperty call.1 call.2 = .error fault from happlied]
    rfl

theorem fst_attempt (r : Rule) (call : String × PropertyValue) :
    (r.attempt call).1 = r.fault? call := by
  obtain ⟨fault, hfault, hattempt⟩ | ⟨s, hfault, hattempt, -⟩ := r.attempt_cases call <;>
    rw [hattempt, hfault]

theorem sameBase_attempt (r : Rule) (call : String × PropertyValue) :
    (r.attempt call).2.SameBase r := by
  obtain ⟨fault, -, hattempt⟩ | ⟨s, -, hattempt, hs⟩ := r.attempt_cases call <;> rw [hattempt]
  · exact .refl r
  · exact (settings_setProperty hs).1

/-- A call sets its property if it is accepted, and nothing else. -/
theorem settings_attempt (r : Rule) (call : String × PropertyValue) (p : String) :
    (r.attempt call).2.settings.lookup p =
      if call.1 = p ∧ r.fault? call = none then
        (r.properties.lookup p).bind (PropertySetting.of? · call.2)
      else r.settings.lookup p := by
  obtain ⟨fault, hfault, hattempt⟩ | ⟨s, hfault, hattempt, hs⟩ := r.attempt_cases call
  · rw [hattempt, if_neg (by simp [hfault])]
  · obtain ⟨-, hset, hothers⟩ := settings_setProperty hs
    rw [hattempt]
    by_cases hp : call.1 = p
    · rw [if_pos ⟨hp, hfault⟩, ← hp, hset]
    · rw [if_neg fun h => hp h.1, hothers p (Ne.symm hp)]

/-- Two calls for different properties give the same rule in either order. -/
theorem attempt_comm (r : Rule) {c d : String × PropertyValue} (h : c.1 ≠ d.1) :
    ((r.attempt c).2.attempt d).2 = ((r.attempt d).2.attempt c).2 := by
  refine eq_of_settings ?_ fun p => ?_
  · have hc := ((r.attempt c).2.sameBase_attempt d).trans (r.sameBase_attempt c)
    exact hc.trans (((r.attempt d).2.sameBase_attempt c).trans (r.sameBase_attempt d)).symm
  · simp only [settings_attempt, (r.sameBase_attempt _).fault?, (r.sameBase_attempt _).properties]
    by_cases hp : c.1 = p
    · have hd : d.1 ≠ p := fun hd => h (hp.trans hd.symm)
      simp [hd]
    · simp [hp]

/-! ## Runs of calls -/

theorem after_append (r : Rule) (calls calls' : List (String × PropertyValue)) :
    r.after (calls ++ calls') = (r.after calls).after calls' :=
  List.foldl_append ..

section After

variable (r : Rule) (calls : List (String × PropertyValue))

theorem sameBase_after : (r.after calls).SameBase r := by
  induction calls using List.reverseRecOn with
  | nil => exact .refl r
  | append_singleton calls call ih =>
    rw [after_append]
    exact ((r.after calls).sameBase_attempt call).trans ih

/-- Calls fail for the same reason whatever was called before them. -/
theorem faults_eq : r.faults calls = calls.map r.fault? := by
  induction calls generalizing r with
  | nil => rfl
  | cons call calls ih =>
    rw [faults, ih, fst_attempt, List.map_cons]
    exact congrArg _ (List.map_congr_left fun call' _ => (r.sameBase_attempt call).fault? call')

theorem lastAccepted?_concat (call : String × PropertyValue) (p : String) :
    r.lastAccepted? (calls ++ [call]) p =
      if call.1 = p ∧ r.fault? call = none then some call.2 else r.lastAccepted? calls p := by
  have hzip (cs : List (String × PropertyValue)) :
      cs.zip (r.faults cs) = cs.map fun c => (c, r.fault? c) := by
    rw [faults_eq, List.map_prod_left_eq_zip]
  rw [lastAccepted?, lastAccepted?, hzip, hzip, List.map_append, List.map_singleton,
    List.reverse_concat, List.find?_cons]
  by_cases hp : call.1 = p <;> cases r.fault? call <;> simp [hp]

/-- Each property is set as its last accepted value says. -/
theorem settings_after (p : String) :
    (r.after calls).settings.lookup p =
      match r.lastAccepted? calls p with
      | some value => (r.properties.lookup p).bind (PropertySetting.of? · value)
      | none => r.settings.lookup p := by
  induction calls using List.reverseRecOn with
  | nil => rfl
  | append_singleton calls call ih =>
    rw [after_append, lastAccepted?_concat]
    show ((r.after calls).attempt call).2.settings.lookup p = _
    rw [settings_attempt, (r.sameBase_after calls).fault?, (r.sameBase_after calls).properties, ih]
    split <;> rfl

end After

/-- A call that fails leaves a rule exactly as it was, and what a rule is after some calls depends
on the last accepted value of each property only. Calls for different properties commute, and no
call changes the name, the message, the priority or what is counted. -/
theorem property_calls (r : Rule) (calls : List (String × PropertyValue)) :
    (∀ property value fault s, (assign property value).run (r.after calls) = .error fault s →
      s = r.after calls) ∧
    (∀ calls', (∀ property, r.lastAccepted? calls property = r.lastAccepted? calls' property) →
      r.after calls = r.after calls') ∧
    (∀ c d rest, c.1 ≠ d.1 →
      r.after (calls ++ c :: d :: rest) = r.after (calls ++ d :: c :: rest)) ∧
    (r.after calls).name = r.name ∧ (r.after calls).message = r.message ∧
    (r.after calls).priority = r.priority ∧ (r.after calls).counting? = r.counting? := by
  have hbase := r.sameBase_after calls
  refine ⟨fun property value fault s h => ?_, fun calls' h => ?_, fun c d rest hne => ?_,
    hbase.name, hbase.message, hbase.priority, hbase.counting⟩
  · rw [run_assign] at h
    cases hset : (r.after calls).setProperty property value with
    | ok t =>
      rw [hset] at h
      cases h
    | error fault' =>
      rw [hset] at h
      cases h
      rfl
  · refine eq_of_settings (hbase.trans (r.sameBase_after calls').symm) fun p => ?_
    rw [settings_after, settings_after, h]
  · rw [after_append, after_append]
    exact congrArg (·.after rest) ((r.after calls).attempt_comm hne)

/-- A call with a text for the minimum leaves the complexity rule as it is, and the first of two
minimums does not count. -/
theorem complexity_calls :
    let r := threshold .cyclomaticComplexity
    let calls := [("minimum", .text "many"), ("minimum", .number 5), ("aggregation", .text "max")]
    let others := [("aggregation", .text "max"), ("minimum", .number 20), ("minimum", .number 5)]
    (∃ fault s, (assign "minimum" (.text "many")).run (r.after calls) = .error fault s ∧
      s = r.after calls) ∧
    r.after calls = r.after others ∧ (r.after calls).name = "CyclomaticComplexity" := by
  intro r calls others
  obtain ⟨hrejected, hlast, -, hname, -⟩ := r.property_calls calls
  refine ⟨?_, hlast others fun property => ?_, hname⟩
  · have hrun : (assign "minimum" (.text "many")).run (r.after calls) =
        .error (.wrongShape "CyclomaticComplexity" "minimum" .number) (r.after calls) := by
      rw [run_assign]
      rfl
    exact ⟨_, _, hrun, hrejected _ _ _ _ hrun⟩
  · have hcalls : r.faults calls =
        [some (.wrongShape "CyclomaticComplexity" "minimum" .number), none, none] := by
      rw [faults_eq]
      decide
    have hothers : r.faults others = [none, none, none] := by
      rw [faults_eq]
      decide
    rw [lastAccepted?, lastAccepted?, hcalls, hothers]
    by_cases hminimum : property = "minimum"
    · simp [calls, others, hminimum]
    · by_cases haggregation : property = "aggregation"
      · simp [calls, others, haggregation]
      · simp [calls, others, Ne.symm hminimum, Ne.symm haggregation]

end Rule

end CodeGauge

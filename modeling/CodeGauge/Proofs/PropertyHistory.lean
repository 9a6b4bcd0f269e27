import Mathlib.Data.List.Dedup
import CodeGauge.Proofs.Layering

/-!
# Where properties of rules come from

A property of a rule is configured if a file sets it. `SettingsInput.configured` lists the
configured properties, each with the value and the source of the highest file that sets it and with
the sources of the files below.

The history of a key is the sources of the files that set a property with this key
(`SettingsInput.history_propertyKey`). That need not be one property: a key does not tell where the
name of the rule ends.
-/

namespace CodeGauge

/-! ## Configured properties -/

namespace Contribution

/-- The properties that are given, each after its rule. -/
def pairs : Contribution → List (String × String)
  | file _ f => f.properties.flatMap fun (rule, table) => table.map fun (property, _) =>
      (rule, property)
  | _ => []

/-- How a contribution is recorded as where a property comes from. -/
def ruleSource : Contribution → Source
  | file source _ => source
  | _ => .builtIn

/-- The keys that stand for the properties that are given. -/
def propertyKeys (c : Contribution) : List String :=
  c.pairs.map fun (rule, property) => Settings.propertyKey rule property

end Contribution

/-- A property configured for a rule. -/
structure ConfiguredProperty where
  rule : String
  property : String
  /-- The value in effect. -/
  value : PropertyValue
  source : Source
  /-- The sources of the values that it hides, from the top down. -/
  hidden : List Source

namespace SettingsInput

variable (i : SettingsInput)

/-- The values given to a property of a rule and their sources, from the bottom up. -/
def given (rule property : String) : List (PropertyValue × Source) :=
  i.contributions.filterMap fun c => (c.property? rule property).map fun value =>
    (value, c.ruleSource)

/-- A property as it is configured, if it is. -/
def configuredProperty? (rule property : String) : Option ConfiguredProperty :=
  match (i.given rule property).reverse with
  | [] => none
  | (value, source) :: below => some ⟨rule, property, value, source, below.map (·.2)⟩

/-- The configured properties, each once. -/
def configured : List ConfiguredProperty :=
  (i.contributions.flatMap (·.pairs)).dedup.filterMap fun (rule, property) =>
    i.configuredProperty? rule property

end SettingsInput

theorem isSome_lastUnder {α : Type} (key : String) (entries : List (String × α)) :
    (lastUnder key entries).isSome ↔ key ∈ entries.map (·.1) := by
  simp [lastUnder]

theorem Contribution.mem_pairs {c : Contribution} {rule property : String} :
    (rule, property) ∈ c.pairs ↔ (c.property? rule property).isSome := by
  cases c with
  | environment e | options o => simp [pairs, property?]
  | file source f =>
    have hgiven : (property? (.file source f) rule property).isSome ↔
        ∃ entry ∈ f.properties, entry.1 = rule ∧ (lastUnder property entry.2).isSome := by
      simp [property?, Option.isSome_iff_ne_none]
    rw [hgiven, pairs, List.mem_flatMap]
    refine exists_congr fun entry => and_congr_right fun _ => ?_
    rw [isSome_lastUnder, List.mem_map, List.mem_map]
    constructor
    · rintro ⟨e, he, heq⟩
      cases heq
      exact ⟨rfl, e, he, rfl⟩
    · rintro ⟨rfl, e, he, rfl⟩
      exact ⟨e, he, rfl⟩

namespace ConfiguredProperty

def pair (c : ConfiguredProperty) : String × String := (c.rule, c.property)

end ConfiguredProperty

namespace SettingsInput

variable {i : SettingsInput} {rule property : String} {c : ConfiguredProperty}

theorem given_eq_nil_iff :
    i.given rule property = [] ↔ (rule, property) ∉ i.contributions.flatMap (·.pairs) := by
  simp [given, Contribution.mem_pairs, Option.isSome_iff_ne_none]

theorem pair_of_configuredProperty? (h : i.configuredProperty? rule property = some c) :
    c.pair = (rule, property) := by
  unfold configuredProperty? at h
  split at h <;> cases h
  rfl

theorem isSome_configuredProperty? :
    (i.configuredProperty? rule property).isSome ↔
      (rule, property) ∈ i.contributions.flatMap (·.pairs) := by
  rw [← not_iff_not, ← given_eq_nil_iff, configuredProperty?]
  split <;> simp_all

theorem value_of_configuredProperty? (i : SettingsInput) (rule property : String) :
    (i.configuredProperty? rule property).map (·.value) =
      configured? i.applied.properties rule property := by
  have hvalues : i.contributions.filterMap (·.property? rule property) =
      (i.given rule property).map (·.1) := by
    simp [given, List.map_filterMap, Function.comp_def]
  rw [configured?_applied, hvalues, List.getLast?_map, ← List.head?_reverse, configuredProperty?]
  split <;> simp_all

theorem sources_of_configuredProperty? (h : i.configuredProperty? rule property = some c) :
    (i.given rule property).map (·.2) = (c.source :: c.hidden).reverse := by
  unfold configuredProperty? at h
  split at h <;> cases h
  rename_i value source below hgiven
  rw [← List.reverse_reverse (i.given rule property), hgiven]
  simp

theorem map_snd_given (i : SettingsInput) (rule property : String) :
    (i.given rule property).map (·.2) =
      (i.contributions.filter ((rule, property) ∈ ·.pairs)).map (·.ruleSource) := by
  simp only [given, Contribution.mem_pairs]
  induction i.contributions with
  | nil => rfl
  | cons d ds ih =>
    rw [List.filterMap_cons, List.filter_cons]
    cases d.property? rule property with
    | none => simpa using ih
    | some value => simpa using ih

theorem map_pair_configured (i : SettingsInput) :
    i.configured.map (·.pair) = (i.contributions.flatMap (·.pairs)).dedup := by
  rw [configured, List.map_filterMap]
  refine (List.filterMap_congr fun (rule, property) h => ?_).trans List.filterMap_some
  obtain ⟨c, hc⟩ := Option.isSome_iff_exists.1 (isSome_configuredProperty?.2 (List.mem_dedup.1 h))
  exact (congrArg _ hc).trans (congrArg some (pair_of_configuredProperty? hc))

theorem nodup_pair_configured (i : SettingsInput) : (i.configured.map (·.pair)).Nodup := by
  rw [map_pair_configured]
  exact List.nodup_dedup _

theorem mem_configured : c ∈ i.configured ↔ i.configuredProperty? c.rule c.property = some c := by
  constructor
  · intro h
    obtain ⟨⟨rule, property⟩, -, hc⟩ := List.mem_filterMap.1 h
    obtain ⟨rfl, rfl⟩ := Prod.mk.inj (pair_of_configuredProperty? hc)
    exact hc
  · intro h
    have hpair := isSome_configuredProperty?.1 (Option.isSome_of_eq_some h)
    exact List.mem_filterMap.2 ⟨(c.rule, c.property), List.mem_dedup.2 hpair, h⟩

theorem exists_configured {d : Contribution} (hd : d ∈ i.contributions)
    (hpair : (rule, property) ∈ d.pairs) : ∃ c ∈ i.configured, c.pair = (rule, property) := by
  have hpair : (rule, property) ∈ i.configured.map (·.pair) := by
    rw [map_pair_configured, List.mem_dedup]
    exact List.mem_flatMap.2 ⟨d, hd, hpair⟩
  exact List.mem_map.1 hpair

end SettingsInput

/-! ## Keys of properties -/

theorem Source.isExplicit_iff (a : Source) : a.isExplicit ↔ 0 < a.level := by
  cases a <;> simp [isExplicit, level]

theorem Source.same_self (a : Source) : a.same a := by
  cases a <;> simp [same, Path.same]

namespace Provenance

theorem withSource_withSource (layers : List Source) (source : Source) :
    withSource (withSource layers source) source = withSource layers source := by
  by_cases h : layers.getLast?.any (·.same source)
  · simp only [withSource, if_pos h]
  · have hlast : (layers ++ [source]).getLast?.any (·.same source) := by
      simp [Source.same_self]
    simp only [withSource, if_neg h, if_pos hlast]

/-- Recording a source under several keys acts on each of them once. -/
theorem history_foldl_source (source : Source) (key : String) (keys : List String) :
    ∀ p : Provenance, (keys.foldl (fun p key => p.set key source) p).history key =
      if key ∈ keys then withSource (p.history key) source else p.history key := by
  induction keys with
  | nil => intro p; rfl
  | cons other keys ih =>
    intro p
    rw [List.foldl_cons, ih]
    by_cases h : key = other
    · subst h
      rw [history_set, withSource_withSource, ite_self, if_pos List.mem_cons_self]
    · simp only [history_set_of_ne p h, List.mem_cons, h, false_or]

end Provenance

namespace Contribution

variable (c : Contribution)

theorem propertyKeys_layer :
    c.layer.properties.map (fun e => Settings.propertyKey e.1 e.2.1) = c.propertyKeys := by
  cases c with
  | environment e | options o => rfl
  | file source f =>
    simp [propertyKeys, pairs, layer, FileSettings.layer, Layer.properties, List.map_flatMap,
      Function.comp_def]

theorem ruleSource_layer : c.layer.ruleSource = c.ruleSource := by
  cases c <;> rfl

theorem level_ruleSource {key : String} (h : key ∈ c.propertyKeys) :
    c.ruleSource.level = c.level := by
  cases c with
  | file source f => rfl
  | environment e | options o => cases h

theorem history_apply_propertyKey {key : String} (hkey : ∀ x : Setting, key ≠ x.key)
    (s : Settings) :
    (c.layer.apply s).provenance.history key =
      if key ∈ c.propertyKeys then
        Provenance.withSource (s.provenance.history key) c.ruleSource
      else s.provenance.history key := by
  -- first the settings are recorded, which have other keys, then the properties
  have hproperties := Provenance.history_foldl_source c.layer.ruleSource key
    (c.layer.properties.map fun e => Settings.propertyKey e.1 e.2.1)
  have hsettings := @history_foldl_set_of_ne key Setting.all (fun x _ => hkey x) c.layer.sets
    c.layer.source s.provenance
  rw [propertyKeys_layer] at hproperties
  rw [← hsettings, ← ruleSource_layer, ← hproperties, ← propertyKeys_layer, List.foldl_map]
  rfl

end Contribution

namespace SettingsInput

variable (i : SettingsInput)

/-- The history of a key that is not a setting's is the sources of the files that set a property
with this key. -/
theorem history_propertyKey {key : String} (hkey : ∀ x : Setting, key ≠ x.key) :
    i.applied.provenance.history key =
      (i.contributions.filter (key ∈ ·.propertyKeys)).map (·.ruleSource) := by
  have hbuiltIn : Settings.builtIn.provenance.history key = [] :=
    (history_foldl_set_of_ne (fun x _ => hkey x) (fun _ => true) (fun _ => .builtIn) .empty).trans
      Std.TreeMap.getD_emptyc
  have happly := @history_foldl_apply key (key ∈ ·.propertyKeys) (·.ruleSource) i.contributions
    (fun s c _ => by simpa only [decide_eq_true_eq] using c.history_apply_propertyKey hkey s)
    Settings.builtIn
  have hchain := @isChain_sources i (key ∈ ·.propertyKeys) (·.ruleSource)
    fun c hc => c.level_ruleSource (of_decide_eq_true hc)
  rw [hbuiltIn, List.nil_append] at happly
  exact happly hchain.tail

theorem hidden_isExplicit {i : SettingsInput} {c : ConfiguredProperty} (h : c ∈ i.configured) :
    ∀ source ∈ c.hidden, source.isExplicit := by
  intro source hsource
  have hgiven := sources_of_configuredProperty? (mem_configured.1 h)
  have hmem : source ∈ (i.given c.rule c.property).map (·.2) := by
    rw [hgiven, List.mem_reverse]
    exact List.mem_cons_of_mem _ hsource
  rw [map_snd_given] at hmem
  obtain ⟨d, hd, rfl⟩ := List.mem_map.1 hmem
  obtain ⟨hd, hpair⟩ := List.mem_filter.1 hd
  have hkey := List.mem_map_of_mem (f := fun e => Settings.propertyKey e.1 e.2)
    (of_decide_eq_true hpair)
  rw [Source.isExplicit_iff, d.level_ruleSource hkey]
  exact i.pairwise_level.2 d hd

end SettingsInput

end CodeGauge

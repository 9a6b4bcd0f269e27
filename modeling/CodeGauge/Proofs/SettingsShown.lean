import CodeGauge.Proofs.PropertyHistory
import CodeGauge.Settings.Summary

/-!
# What is shown of settings

An overview has a line for each setting and for each configured property, an explanation one for
each property of its rule: with the value in effect, where it comes from and, in an explanation,
what it hides. `SettingsInput.OverviewTrue` and `SettingsInput.ExplanationTrue` say so by the
configured properties, while both are printed from keys. A key can be read back as far as the names
of rules have no dots (`Settings.splitKey?_propertyKey`), and then both are true
(`resolved_settings_shown`). A rule's name with a dot makes them false (`dotted_rule_misread`).
-/

namespace CodeGauge

/-! ## Lines -/

/-- Whether a text is lines one below the other, those in the middle in any order. -/
def Text.HasLines (text : String) (above middle below : List String) : Prop :=
  ∃ shown, shown.Perm middle ∧ text = Text.lines (above ++ shown ++ below)

namespace ConfiguredProperty

def key (c : ConfiguredProperty) : String := Settings.propertyKey c.rule c.property

theorem key_ne (c : ConfiguredProperty) (x : Setting) : c.key ≠ x.key :=
  Settings.propertyKey_ne c.rule c.property x

def line (c : ConfiguredProperty) : String :=
  "  rules." ++ c.rule ++ "." ++ c.property ++ ": " ++ c.value.words ++ " <- " ++ c.source.words

/-- A property with its value, where it comes from and what it hides. -/
def explanation (c : ConfiguredProperty) : String :=
  c.line ++ if c.hidden.isEmpty then ""
    else " (overrides " ++ ", ".intercalate (c.hidden.map (·.words)) ++ ")"

end ConfiguredProperty

namespace SettingsInput

variable (i : SettingsInput)

/-- Where the value of a setting comes from: the highest layer that gives it one. -/
def settingSource (x : Setting) : Source := (sourcesOf x i.contributions).getLastD .builtIn

def settingLine (s : Settings) (x : Setting) : String :=
  "  " ++ x.key ++ ": " ++ s.settingText x ++ " <- " ++ (i.settingSource x).words

/-- The lines that an overview should have: one for each setting and each configured property. -/
def overviewLines (s : Settings) : List String :=
  Setting.all.map (i.settingLine s) ++ i.configured.map (·.line)

/-- Whether an overview tells what was resolved, beside the files that were read and the patterns
that are ignored. -/
def OverviewTrue (s : Settings) : Prop :=
  Text.HasLines s.overview (s.filesText ++ ["", "Resolved settings:"]) (i.overviewLines s)
    (if s.ignored.isEmpty then [] else ["", "Ignored paths: " ++ ", ".intercalate s.ignored])

def configuredFor (rule : String) : List ConfiguredProperty :=
  i.configured.filter (·.rule = rule)

/-- The lines that the explanation of a rule should have: one for each property configured for it,
or one that says there is none. -/
def explanationLines (rule : String) : List String :=
  if (i.configuredFor rule).isEmpty then
    ["  (no configured properties; built-in defaults apply)"]
  else (i.configuredFor rule).map (·.explanation)

/-- Whether the explanation of a rule tells what is configured for it. -/
def ExplanationTrue (s : Settings) (rule : String) : Prop :=
  Text.HasLines (s.explain rule) ["Rule: " ++ rule, ""] (i.explanationLines rule) []

end SettingsInput

/-! ## Keys -/

theorem Setting.ofKey?_key (x : Setting) : ofKey? x.key = some x := by
  cases x <;> decide

namespace Settings

variable {rule property : String}

theorem ofKey?_propertyKey (rule property : String) :
    Setting.ofKey? (propertyKey rule property) = none := by
  rw [Setting.ofKey?, List.find?_eq_none]
  intro x _
  simpa using (propertyKey_ne rule property x).symm

theorem toList_propertyKey (rule property : String) :
    (propertyKey rule property).toList =
      "rules.".toList ++ (rule.toList ++ '.' :: property.toList) := by
  simp [propertyKey, Provenance.ruleStart]

/-- The name of a rule without a dot can be read back from a key. -/
theorem splitKey?_propertyKey (h : '.' ∉ rule.toList) (property : String) :
    splitKey? (propertyKey rule property) = some (rule, property) := by
  have hname : ∀ c ∈ rule.toList, (c != '.') = true := fun c hc => by
    simpa using fun he : c = '.' => h (he ▸ hc)
  simp only [splitKey?, toList_propertyKey]
  rw [if_pos (List.isPrefixOf_iff_prefix.2 (List.prefix_append _ _)), List.drop_left,
    List.dropWhile_append_of_pos hname, List.takeWhile_append_of_pos hname]
  simp

theorem propertyKey_inj {rule' property' : String} (h : '.' ∉ rule.toList)
    (h' : '.' ∉ rule'.toList) (heq : propertyKey rule property = propertyKey rule' property') :
    (rule, property) = (rule', property') := by
  have hsplit := congrArg splitKey? heq
  rw [splitKey?_propertyKey h, splitKey?_propertyKey h'] at hsplit
  exact Option.some.inj hsplit

/-- A key starts with another rule's name only through a dot in each of its parts. -/
theorem isPrefixOf_propertyKey {asked : String} (h : '.' ∉ rule.toList)
    (hdots : '.' ∉ asked.toList ∨ '.' ∉ property.toList) :
    (Provenance.ruleStart asked).toList.isPrefixOf (propertyKey rule property).toList ↔
      rule = asked := by
  have hstart : (Provenance.ruleStart asked).toList =
      "rules.".toList ++ (asked.toList ++ ['.']) := by
    simp [Provenance.ruleStart]
  rw [List.isPrefixOf_iff_prefix, hstart, toList_propertyKey, List.prefix_append_right_inj]
  constructor
  · rintro ⟨rest, hrest⟩
    rw [List.append_assoc, List.singleton_append] at hrest
    rcases hdots with hasked | hproperty
    -- both are keys of rules without a dot, or the key has no other dot than the one asked for
    · have hkey : propertyKey asked (String.ofList rest) = propertyKey rule property := by
        rw [← String.toList_inj, toList_propertyKey, toList_propertyKey, ← hrest,
          @String.toList_ofList rest]
      exact (Prod.mk.inj (propertyKey_inj hasked h hkey)).1.symm
    · have hparts := (List.append_cons_inj_of_notMem h hproperty).1 hrest.symm
      exact String.toList_inj.1 hparts.1
  · rintro rfl
    exact ⟨property.toList, by simp⟩

variable (s : Settings)

theorem valueText_key (x : Setting) : s.valueText x.key = s.settingText x := by
  rw [valueText, Setting.ofKey?_key]

theorem valueText_propertyKey (h : '.' ∉ rule.toList) (property : String) :
    s.valueText (propertyKey rule property) =
      ((configured? s.properties rule property).map (·.words)).getD "(unknown)" := by
  rw [valueText, ofKey?_propertyKey, property?, splitKey?_propertyKey h]
  rfl

end Settings

/-! ## Entries -/

namespace Provenance

variable (p : Provenance) (start : String)

theorem mem_entriesBelow (entry : String × Source) :
    entry ∈ p.entriesBelow start ↔
      start.toList.isPrefixOf entry.1.toList ∧ p.get? entry.1 = some entry.2 := by
  have hget (key : String) : p.get? key = p.layers[key]?.bind (·.getLast?) := by
    rw [get?, history, Std.TreeMap.getD_eq_getD_getElem?]
    cases p.layers[key]? <;> rfl
  rw [entriesBelow, hget, List.mem_filterMap]
  constructor
  · rintro ⟨⟨key, layers⟩, hmem, hentry⟩
    obtain ⟨hmem, hstart⟩ := List.mem_filter.1 hmem
    obtain ⟨source, hlast, rfl⟩ := Option.map_eq_some_iff.1 hentry
    rw [Std.TreeMap.mem_toList_iff_getElem?_eq_some.1 hmem]
    exact ⟨hstart, hlast⟩
  · rintro ⟨hstart, hlast⟩
    obtain ⟨layers, hlayers, hlast⟩ := Option.bind_eq_some_iff.1 hlast
    exact ⟨(entry.1, layers),
      List.mem_filter.2 ⟨Std.TreeMap.mem_toList_iff_getElem?_eq_some.2 hlayers, hstart⟩,
      Option.map_eq_some_iff.2 ⟨entry.2, hlast, rfl⟩⟩

theorem nodup_entriesBelow : (p.entriesBelow start).Nodup := by
  have hkeys := (Std.TreeMap.distinct_keys_toList (t := p.layers)).filter
    fun e => start.toList.isPrefixOf e.1.toList
  refine List.pairwise_filterMap.2 (hkeys.imp fun hne entry hentry other hother heq => hne ?_)
  obtain ⟨_, -, rfl⟩ := Option.map_eq_some_iff.1 hentry
  obtain ⟨_, -, rfl⟩ := Option.map_eq_some_iff.1 hother
  rw [(Prod.mk.inj heq).1]
  exact Std.ReflCmp.compare_self

end Provenance

/-! ## Settings as resolved -/

namespace SettingsInput

variable {i : SettingsInput} {s : Settings}

theorem get?_key (i : SettingsInput) (x : Setting) :
    i.applied.provenance.get? x.key = some (i.settingSource x) := by
  rw [Provenance.get?, history_applied, List.getLast?_cons]
  exact congrArg some (List.getLastD_eq_getLast?).symm

theorem eq_of_resolve (h : i.resolve = .ok s) :
    s.provenance = i.applied.provenance ∧ s.properties = i.applied.properties := by
  rw [resolve_eq] at h
  cases hfault : i.faults.head? <;> rw [hfault] at h <;> cases h
  exact ⟨rfl, rfl⟩

theorem resolve_of_faults (h : i.faults = []) :
    i.resolve = .ok { i.applied with
      ignored := (i.ignore.map (·.patterns)).getD [], loadedFiles := i.paths } := by
  rw [resolve_eq, h]
  rfl

theorem configured?_iff (h : i.resolve = .ok s) (rule property : String) (value : PropertyValue) :
    configured? s.properties rule property = some value ↔
      ∃ c ∈ i.configured, c.pair = (rule, property) ∧ c.value = value := by
  rw [(eq_of_resolve h).2, ← value_of_configuredProperty?, Option.map_eq_some_iff]
  constructor
  · rintro ⟨c, hc, rfl⟩
    have hpair := pair_of_configuredProperty? hc
    obtain ⟨rfl, rfl⟩ := Prod.mk.inj hpair
    exact ⟨c, mem_configured.2 hc, hpair, rfl⟩
  · rintro ⟨c, hc, hpair, rfl⟩
    obtain ⟨rfl, rfl⟩ := Prod.mk.inj hpair
    exact ⟨c, mem_configured.1 hc, rfl⟩

theorem entryText_key (i : SettingsInput) (s : Settings) (x : Setting) :
    s.entryText (x.key, i.settingSource x) = i.settingLine s x := by
  rw [Settings.entryText, Settings.valueText_key, settingLine]

section Undotted

variable (hrules : ∀ c ∈ i.configured, '.' ∉ c.rule.toList)

include hrules

/-- No property that is given has the key of another one that is configured. -/
theorem pair_eq_of_key {d : Contribution} (hd : d ∈ i.contributions) {rule property : String}
    (hpair : (rule, property) ∈ d.pairs) {c : ConfiguredProperty} (hc : c ∈ i.configured)
    (hkey : Settings.propertyKey rule property = c.key) : (rule, property) = c.pair := by
  obtain ⟨c', hc', hpair⟩ := exists_configured hd hpair
  obtain ⟨rfl, rfl⟩ := Prod.mk.inj hpair
  exact Settings.propertyKey_inj (hrules c' hc') (hrules c hc) hkey

theorem history_configured {c : ConfiguredProperty} (h : c ∈ i.configured) :
    i.applied.provenance.history c.key = (c.source :: c.hidden).reverse := by
  rw [i.history_propertyKey c.key_ne, ← sources_of_configuredProperty? (mem_configured.1 h),
    map_snd_given]
  congr 1
  refine List.filter_congr fun d hd => decide_eq_decide.2 ⟨fun hkey => ?_, fun hpair => ?_⟩
  · obtain ⟨⟨rule, property⟩, hpair, hkey⟩ := List.mem_map.1 hkey
    change c.pair ∈ d.pairs
    rwa [← pair_eq_of_key hrules hd hpair h hkey]
  · exact List.mem_map.2 ⟨_, hpair, rfl⟩

theorem get?_propertyKey {key : String} (hkey : ∀ x : Setting, key ≠ x.key) (source : Source) :
    i.applied.provenance.get? key = some source ↔
      ∃ c ∈ i.configured, c.key = key ∧ c.source = source := by
  have hlast {c : ConfiguredProperty} (hc : c ∈ i.configured) :
      i.applied.provenance.get? c.key = some c.source := by
    rw [Provenance.get?, history_configured hrules hc, List.getLast?_reverse, List.head?_cons]
  constructor
  · intro h
    -- whoever was recorded last under the key sets a property that the key stands for
    have hmem := List.mem_of_getLast? h
    rw [i.history_propertyKey hkey] at hmem
    obtain ⟨d, hfound, -⟩ := List.mem_map.1 hmem
    obtain ⟨hd, hgives⟩ := List.mem_filter.1 hfound
    obtain ⟨⟨rule, property⟩, hpair, rfl⟩ := List.mem_map.1 (of_decide_eq_true hgives)
    obtain ⟨c, hc, hpair⟩ := exists_configured hd hpair
    obtain ⟨rfl, rfl⟩ := Prod.mk.inj hpair
    exact ⟨c, hc, rfl, Option.some.inj ((hlast hc).symm.trans h)⟩
  · rintro ⟨c, hc, rfl, rfl⟩
    exact hlast hc

theorem get?_eq_some_iff (key : String) (source : Source) :
    i.applied.provenance.get? key = some source ↔
      (key, source) ∈ Setting.all.map (fun x => (x.key, i.settingSource x)) ++
        i.configured.map fun c => (c.key, c.source) := by
  simp only [List.mem_append, List.mem_map, Prod.mk.injEq, Setting.mem_all, true_and]
  by_cases hkey : ∃ x : Setting, key = x.key
  · obtain ⟨x, rfl⟩ := hkey
    rw [i.get?_key, Option.some_inj]
    constructor
    · exact fun h => .inl ⟨x, rfl, h⟩
    · rintro (⟨y, hy, h⟩ | ⟨c, -, hc, -⟩)
      · rwa [Setting.key_injective hy] at h
      · exact absurd hc (c.key_ne x)
  · rw [get?_propertyKey hrules (not_exists.1 hkey)]
    refine (or_iff_right ?_).symm
    rintro ⟨x, hx, -⟩
    exact hkey ⟨x, hx.symm⟩

theorem nodup_key : (i.configured.map (·.key)).Nodup := by
  have hpairs := i.nodup_pair_configured
  rw [List.nodup_iff_pairwise_ne, List.pairwise_map] at *
  refine hpairs.imp_of_mem fun hc hd hne hkey => hne ?_
  exact Settings.propertyKey_inj (hrules _ hc) (hrules _ hd) hkey

/-- The keys that start with a text are those of the settings and of the configured properties. -/
theorem entriesBelow_perm (start : String) :
    (i.applied.provenance.entriesBelow start).Perm <|
      (Setting.all.map (fun x => (x.key, i.settingSource x)) ++
        i.configured.map fun c => (c.key, c.source)).filter
        fun e => start.toList.isPrefixOf e.1.toList := by
  have hkeys : ((Setting.all.map (fun x => (x.key, i.settingSource x)) ++
      i.configured.map fun c => (c.key, c.source)).map (·.1)).Nodup := by
    rw [List.map_append, List.map_map, List.map_map, List.nodup_append]
    refine ⟨Setting.nodup_all.map Setting.key_injective, nodup_key hrules, ?_⟩
    simp only [List.mem_map]
    rintro _ ⟨x, -, rfl⟩ _ ⟨c, -, rfl⟩
    exact (c.key_ne x).symm
  refine (List.perm_ext_iff_of_nodup (Provenance.nodup_entriesBelow _ _)
    ((List.Nodup.of_map _ hkeys).filter _)).2 fun (key, source) => ?_
  rw [Provenance.mem_entriesBelow, List.mem_filter, and_comm, get?_eq_some_iff hrules]

theorem entriesBelow_ruleStart {rule : String}
    (hdots : '.' ∉ rule.toList ∨ ∀ c ∈ i.configured, '.' ∉ c.property.toList) :
    (i.applied.provenance.ruleEntries rule).Perm
      ((i.configuredFor rule).map fun c => (c.key, c.source)) := by
  refine (entriesBelow_perm hrules _).trans ?_
  have hsettings : (Setting.all.map fun x => (x.key, i.settingSource x)).filter
      (fun e => (Provenance.ruleStart rule).toList.isPrefixOf e.1.toList) = [] := by
    rw [List.filter_eq_nil_iff]
    intro e he hstart
    obtain ⟨x, -, rfl⟩ := List.mem_map.1 he
    obtain ⟨rest, hrest⟩ := List.isPrefixOf_iff_prefix.1 hstart
    refine Settings.propertyKey_ne rule (String.ofList rest) x ?_
    rw [← String.toList_inj, Settings.propertyKey, String.toList_append, @String.toList_ofList rest]
    exact hrest
  have hproperties : (i.configured.map fun c => (c.key, c.source)).filter
      (fun e => (Provenance.ruleStart rule).toList.isPrefixOf e.1.toList) =
        (i.configuredFor rule).map fun c => (c.key, c.source) := by
    rw [List.filter_map, configuredFor]
    congr 1
    refine List.filter_congr fun c hc => Bool.eq_iff_iff.2 ?_
    rw [decide_eq_true_iff]
    exact Settings.isPrefixOf_propertyKey (hrules c hc) (hdots.imp_right (· c hc))
  rw [List.filter_append, hsettings, hproperties, List.nil_append]

/-! ## Texts -/

variable (h : i.resolve = .ok s)

include h

theorem entryText_configured {c : ConfiguredProperty} (hc : c ∈ i.configured) :
    s.entryText (c.key, c.source) = c.line := by
  have hvalue : configured? s.properties c.rule c.property = some c.value :=
    (configured?_iff h _ _ _).2 ⟨c, hc, rfl, rfl⟩
  have hstart : "  " ++ c.key = "  rules." ++ c.rule ++ "." ++ c.property := by
    simp [ConfiguredProperty.key, Settings.propertyKey, Provenance.ruleStart, ← String.toList_inj]
  have htext : s.valueText c.key = c.value.words := by
    rw [ConfiguredProperty.key, s.valueText_propertyKey (hrules c hc), hvalue]
    rfl
  rw [Settings.entryText, hstart, htext]
  delta ConfiguredProperty.line
  rfl

theorem overview_true : i.OverviewTrue s := by
  refine ⟨s.provenance.entries.map s.entryText, ?_, rfl⟩
  have hentries := (entriesBelow_perm hrules "").map s.entryText
  have hall (e : String × Source) : "".toList.isPrefixOf e.1.toList = true := rfl
  rw [List.filter_eq_self.2 fun e _ => hall e, List.map_append, List.map_map,
    List.map_map] at hentries
  rw [(eq_of_resolve h).1]
  refine hentries.trans (List.Perm.of_eq (congrArg₂ (· ++ ·) ?_ ?_))
  · exact List.map_congr_left fun x _ => i.entryText_key s x
  · exact List.map_congr_left fun c hc => entryText_configured hrules h hc

theorem shadowedText_configured {c : ConfiguredProperty} (hc : c ∈ i.configured) :
    s.shadowedText c.key =
      if c.hidden.isEmpty then ""
      else " (overrides " ++ ", ".intercalate (c.hidden.map (·.words)) ++ ")" := by
  have hhidden : s.provenance.shadowed c.key = c.hidden := by
    rw [(eq_of_resolve h).1, Provenance.shadowed, history_configured hrules hc,
      List.reverse_reverse, List.drop_one, List.tail_cons,
      List.filter_eq_self.2 (hidden_isExplicit hc)]
  rw [Settings.shadowedText, hhidden]

theorem explanation_true {rule : String}
    (hdots : '.' ∉ rule.toList ∨ ∀ c ∈ i.configured, '.' ∉ c.property.toList) :
    i.ExplanationTrue s rule := by
  have hentries := entriesBelow_ruleStart hrules hdots
  rw [← (eq_of_resolve h).1] at hentries
  have htext : s.explain rule = Text.lines (["Rule: " ++ rule, ""] ++
      if (s.provenance.ruleEntries rule).isEmpty then
        ["  (no configured properties; built-in defaults apply)"]
      else (s.provenance.ruleEntries rule).map fun e => s.entryText e ++ s.shadowedText e.1) := rfl
  have hempty : (s.provenance.ruleEntries rule).isEmpty = (i.configuredFor rule).isEmpty := by
    rw [hentries.isEmpty_eq, List.isEmpty_map]
  rw [ExplanationTrue, htext, hempty, explanationLines]
  split
  · exact ⟨_, .refl _, by rw [List.append_nil]⟩
  · refine ⟨_, (hentries.map _).trans (List.Perm.of_eq ?_), by rw [List.append_nil]⟩
    rw [List.map_map]
    refine List.map_congr_left fun c hc => ?_
    have hc := (List.mem_filter.1 hc).1
    exact congrArg₂ (· ++ ·) (entryText_configured hrules h hc)
      (shadowedText_configured hrules h hc)

end Undotted

end SettingsInput

/-- As far as no rule with a property has a dot in its name, what is shown of resolved settings is
true: the overview lists each setting and each configured property once, with the value in effect
and where it comes from, and the explanation of a rule those configured for it, with the files
below that set them too, from the top down. The rule explained may have a dot itself if no property
has one. -/
theorem resolved_settings_shown {i : SettingsInput} {s : Settings} (h : i.resolve = .ok s)
    (hrules : ∀ c ∈ i.configured, '.' ∉ c.rule.toList) :
    (i.configured.map (·.pair)).Nodup ∧
    (∀ rule property value, configured? s.properties rule property = some value ↔
      ∃ c ∈ i.configured, c.pair = (rule, property) ∧ c.value = value) ∧
    i.OverviewTrue s ∧
    ∀ rule : String, ('.' ∉ rule.toList ∨ ∀ c ∈ i.configured, '.' ∉ c.property.toList) →
      i.ExplanationTrue s rule :=
  ⟨i.nodup_pair_configured, SettingsInput.configured?_iff h,
    SettingsInput.overview_true hrules h, fun _ => SettingsInput.explanation_true hrules h⟩

/-- The user's file and the project's set the same property. -/
def SettingsInput.overridden : SettingsInput where
  user := some ⟨"/u/config.toml", "[rules.NcssCount]\nenabled = false\n".toUTF8⟩
  project := some ⟨"/p/.tally.toml", "[rules.NcssCount]\nenabled = true\n".toUTF8⟩

open SettingsInput in
theorem overridden_property_shown :
    (∀ c ∈ overridden.configured, '.' ∉ c.rule.toList) ∧
      ∃ s, overridden.resolve = .ok s ∧ overridden.OverviewTrue s ∧
        overridden.ExplanationTrue s "NcssCount" ∧
        s.explain "NcssCount" = "Rule: NcssCount\n\n" ++
          "  rules.NcssCount.enabled: true <- project config (/p/.tally.toml)" ++
          " (overrides user config (/u/config.toml))\n" := by
  have hrules : ∀ c ∈ overridden.configured, '.' ∉ c.rule.toList := by decide +kernel
  have hs := resolve_of_faults (i := overridden) (by decide +kernel)
  obtain ⟨-, -, hoverview, hexplanation⟩ := resolved_settings_shown hs hrules
  exact ⟨hrules, _, hs, hoverview, hexplanation _ (.inl (by decide)), by decide +kernel⟩

/-! ## A dotted name -/

theorem Text.lines_cons (l : String) (ls : List String) :
    lines (l :: ls) = l ++ "\n" ++ lines ls := by
  simp [lines, String.join_cons]

theorem Text.utf8ByteSize_lines_of_perm {ls ms : List String} (h : ls.Perm ms) :
    (lines ls).utf8ByteSize = (lines ms).utf8ByteSize := by
  induction h with
  | nil => rfl
  | cons l _ ih => rw [lines_cons, lines_cons, String.utf8ByteSize_append, ih,
      ← String.utf8ByteSize_append]
  | swap l m ls =>
    simp only [lines_cons, String.utf8ByteSize_append]
    omega
  | trans _ _ hl hm => exact hl.trans hm

theorem Text.HasLines.utf8ByteSize_eq {text : String} {above middle below : List String}
    (h : HasLines text above middle below) :
    text.utf8ByteSize = (lines (above ++ middle ++ below)).utf8ByteSize := by
  obtain ⟨shown, hshown, rfl⟩ := h
  exact utf8ByteSize_lines_of_perm ((hshown.append_left above).append_right below)

/-- A rule whose name has a dot has a property. -/
def SettingsInput.dotted : SettingsInput where
  project := some ⟨"/p/.tally.toml", "[rules.\"NcssCount.x\"]\nenabled = true\n".toUTF8⟩

open SettingsInput in
/-- The property of the rule `NcssCount.x` is shown without its value, and explained as one of the
rule `NcssCount`, which has none. -/
theorem dotted_rule_misread :
    dotted.configured.map (·.line) =
        ["  rules.NcssCount.x.enabled: true <- project config (/p/.tally.toml)"] ∧
      dotted.explanationLines "NcssCount" =
        ["  (no configured properties; built-in defaults apply)"] ∧
      ∃ s, dotted.resolve = .ok s ∧ ¬dotted.OverviewTrue s ∧
        ¬dotted.ExplanationTrue s "NcssCount" ∧
        s.explain "NcssCount" = "Rule: NcssCount\n\n" ++
          "  rules.NcssCount.x.enabled: (unknown) <- project config (/p/.tally.toml)\n" := by
  have hs := resolve_of_faults (i := dotted) (by decide +kernel)
  refine ⟨by decide +kernel, by decide +kernel, _, hs, fun h => ?_, fun h => ?_, by decide +kernel⟩
  · exact absurd h.utf8ByteSize_eq (by decide +kernel)
  · exact absurd h.utf8ByteSize_eq (by decide +kernel)

end CodeGauge

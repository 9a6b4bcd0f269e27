import Mathlib.Data.List.Chain
import Mathlib.Data.List.Nodup
import CodeGauge.Proofs.LayerFault

/-!
# Layers one on top of the other

Above the built-in values lie the user's file, the project's file, the environment and the options.
`Contribution.value?` says what each of them gives a setting, straight from what was written: no
value and an empty list of patterns give nothing, an empty text is a value.

Applying a layer changes the value of a setting (`Layer.value_apply`) and its history
(`Contribution.history_apply`) exactly if the layer gives it a value, and a property of a rule
exactly if it is in the layer's tables (`Contribution.configured?_apply`). So after all layers a
setting has the value of the last one that gives it one, and its history is the built-in value
followed by exactly those layers (`resolve_layering`).
-/

namespace CodeGauge

/-! ## What is written -/

/-- The type of the values of a setting. -/
def Setting.Value : Setting → Type
  | .language => Option Language
  | .format => String
  | .quiet => Bool
  | .ruleSets => String
  | .minPriority => Priority
  | .aggregation => Rollup
  | .includes => List String
  | .excludes => List String

/-- The built-in value of a setting. -/
def Setting.builtIn : (x : Setting) → x.Value
  | .language => none
  | .format => "text"
  | .quiet => false
  | .ruleSets => "all"
  | .minPriority => Priority.low
  | .aggregation => Rollup.sum
  | .includes => []
  | .excludes => []

/-- The value of a setting in a run. -/
def Settings.value (s : Settings) : (x : Setting) → x.Value
  | .language => s.language
  | .format => s.format
  | .quiet => s.quiet
  | .ruleSets => s.ruleSets
  | .minPriority => s.minPriority
  | .aggregation => s.aggregation
  | .includes => s.includes
  | .excludes => s.excludes

/-- The value configured for a property of a rule in tables by rule. -/
def configured? (tables : Std.TreeMap String RuleProperties) (rule property : String) :
    Option PropertyValue :=
  (tables.get? rule).bind (·.get? property)

/-- What lies above the built-in values: a file that could be read, the environment or the options
of a command. -/
inductive Contribution where
  | file (source : Source) (found : FileSettings)
  | environment (read : Environment)
  | options (given : Overrides)

/-- Patterns that are a value: an empty list is none. -/
def patterns? (patterns : List String) : Option (List String) :=
  if patterns = [] then none else some patterns

/-- The last value under a key. -/
def lastUnder {α : Type} (key : String) (entries : List (String × α)) : Option α :=
  (entries.filterMap fun (other, value) => if other = key then some value else none).getLast?

namespace Contribution

/-- The value that is given to a setting. -/
def value? : Contribution → (x : Setting) → Option x.Value
  | file _ f, .language => f.language?.map some
  | file _ f, .format => f.format
  | file _ f, .quiet => f.quiet
  | file _ f, .ruleSets => f.ruleSets
  | file _ f, .minPriority => f.minPriority?
  | file _ f, .aggregation => f.aggregation.map Rollup.parse
  | file _ f, .includes => patterns? f.includes
  | file _ f, .excludes => patterns? f.excludes
  | environment e, .format => e.format
  | environment e, .ruleSets => e.ruleSets
  | environment e, .minPriority => e.minPriority?
  | environment _, _ => none
  | options o, .language => o.language.map some
  | options o, .format => o.format.map OutputFormat.name
  | options o, .quiet => if o.quiet then some true else none
  | options o, .ruleSets => o.ruleSets
  | options o, .minPriority => o.minPriority
  | options o, .aggregation => o.aggregation
  | options o, .includes => patterns? o.includes
  | options o, .excludes => patterns? o.excludes

/-- The value that is given to a property of a rule: only files give any. -/
def property? : Contribution → (rule property : String) → Option PropertyValue
  | file _ f, rule, property =>
    (f.properties.filterMap fun (other, table) =>
      if other = rule then lastUnder property table else none).getLast?
  | _, _, _ => none

/-- How a contribution is recorded as where a setting comes from. -/
def source : Contribution → Setting → Source
  | file source _, _ => source
  | environment _, x => Environment.source x
  | options _, x => .option (Overrides.optionName x)

/-- The layer that is applied. -/
def layer : Contribution → Layer
  | file source f => f.layer source
  | environment e =>
    { format := e.format, ruleSets := e.ruleSets, minPriority := e.minPriority?
      source := Environment.source }
  | options o => o.layer

end Contribution

/-- What a file contributes if it is there and can be read. -/
def Contribution.ofFile? (kind : FileLayer) (file : Option ConfigFile) : Option Contribution :=
  file.bind fun file => file.found?.map (.file (kind.source file.path))

/-- The contributions to settings, from the bottom up. -/
def SettingsInput.contributions (i : SettingsInput) : List Contribution :=
  (Contribution.ofFile? .user i.user).toList ++ (Contribution.ofFile? .project i.project).toList ++
    [.environment i.environment, .options i.overrides]

theorem SettingsInput.layers_eq (i : SettingsInput) :
    i.layers = okUnless i.faults.head? (i.contributions.map (·.layer)) := by
  unfold layers
  rw [ConfigFile.layer_eq, ConfigFile.layer_eq, Environment.layer_eq]
  have hhead : i.faults.head? =
      (i.user.bind (·.fault? .user)).or
        ((i.project.bind (·.fault? .project)).or i.environment.fault?) := by
    simp [faults]
  rw [hhead]
  refine okUnless_bind (okUnless_bind ?_)
  rw [okUnless_bind_pure]
  have hfile (kind : FileLayer) (file : Option ConfigFile) :
      (Contribution.ofFile? kind file).map (·.layer) =
        file.bind fun file => file.found?.map (·.layer (kind.source file.path)) := by
    rw [Contribution.ofFile?, Option.map_bind]
    simp only [Function.comp_def, Option.map_map]
    rfl
  rw [← hfile, ← hfile, contributions, List.map_append, List.map_append, Option.toList_map,
    Option.toList_map]
  rfl

/-! ## The last one counts -/

/-- If each step shows what it gives, and otherwise what was shown before, all of them together show
what the last one that gives something gave. -/
theorem foldl_last {σ ι α : Type} (view : σ → Option α) {step : σ → ι → σ} {gives : ι → Option α}
    (h : ∀ s i, view (step s i) = (gives i).or (view s)) (is : List ι) :
    ∀ s, view (is.foldl step s) = ((is.filterMap gives).getLast?).or (view s) := by
  induction is with
  | nil => intro s; rfl
  | cons i is ih =>
    intro s
    rw [List.foldl_cons, ih, h, List.filterMap_cons]
    cases gives i with
    | none => rfl
    | some a => rw [List.getLast?_cons]; cases (is.filterMap gives).getLast? <;> rfl

theorem foldl_unseen {σ ι α : Type} (view : σ → α) {step : σ → ι → σ} {is : List ι}
    (h : ∀ s, ∀ i ∈ is, view (step s i) = view s) (s : σ) :
    view (is.foldl step s) = view s :=
  List.foldlRecOn (motive := fun t => view t = view s) is step rfl fun _ ht i hi =>
    (h _ i hi).trans ht

theorem get?_insert {α : Type} (t : Std.TreeMap String α) (key other : String) (a : α) :
    (t.insert other a).get? key = (if other = key then some a else none).or (t.get? key) := by
  rw [Std.TreeMap.get?_eq_getElem?, Std.TreeMap.getElem?_insert]
  by_cases h : other = key
  · simp [h]
  · rw [if_neg (by simpa using h), if_neg h]
    rfl

theorem get?_foldl_insert (entries : List (String × PropertyValue)) (table : RuleProperties)
    (key : String) :
    (entries.foldl (fun t (property, value) => t.insert property value) table).get? key =
      (lastUnder key entries).or (table.get? key) :=
  foldl_last (Std.TreeMap.get? · key) (fun t e => get?_insert t key e.1 e.2) entries table

theorem configured?_mergeTable (tables : Std.TreeMap String RuleProperties)
    (entry : String × List (String × PropertyValue)) (rule property : String) :
    configured? (Layer.mergeTable tables entry) rule property =
      (if entry.1 = rule then lastUnder property entry.2 else none).or
        (configured? tables rule property) := by
  rw [configured?, Layer.mergeTable, get?_insert]
  by_cases h : entry.1 = rule
  · rw [if_pos h, if_pos h, Option.some_or, Option.bind_some, get?_foldl_insert]
    congr 1
    simp only [configured?, h, Std.TreeMap.get?_eq_getElem?, Std.TreeMap.getD_eq_getD_getElem?]
    cases tables[rule]? <;> simp
  · rw [if_neg h, if_neg h, Option.none_or, Option.none_or, configured?]

/-! ## One layer -/

theorem patternsOr_eq (patterns others : List String) :
    Layer.patternsOr patterns others = (patterns? patterns).getD others := by
  cases patterns <;> rfl

theorem isSome_patterns? (patterns : List String) :
    (patterns? patterns).isSome = !patterns.isEmpty := by
  cases patterns <;> rfl

namespace Layer

/-- The value that a layer gives a setting. -/
def value? (l : Layer) : (x : Setting) → Option x.Value
  | .language => l.language.map some
  | .format => l.format
  | .quiet => l.quiet
  | .ruleSets => l.ruleSets
  | .minPriority => l.minPriority
  | .aggregation => l.aggregation
  | .includes => patterns? l.includes
  | .excludes => patterns? l.excludes

variable (l : Layer)

theorem value_apply (s : Settings) (x : Setting) :
    (l.apply s).value x = (l.value? x).getD (s.value x) := by
  cases x with
  | language =>
    show (l.language <|> s.language) = (l.language.map some).getD s.language
    cases l.language <;> rfl
  | includes | excludes => exact patternsOr_eq _ _
  | _ => rfl

theorem sets_eq (x : Setting) : l.sets x = (l.value? x).isSome := by
  cases x with
  | language => exact (Option.isSome_map).symm
  | includes | excludes => exact (isSome_patterns? _).symm
  | _ => rfl

end Layer

namespace Contribution

theorem value?_layer (c : Contribution) (x : Setting) : c.layer.value? x = c.value? x := by
  cases c <;> cases x <;> rfl

theorem source_layer (c : Contribution) (x : Setting) : c.layer.source x = c.source x := by
  cases c <;> rfl

theorem configured?_apply (c : Contribution) (s : Settings) (rule property : String) :
    configured? (c.layer.apply s).properties rule property =
      (c.property? rule property).or (configured? s.properties rule property) := by
  cases c with
  | file source f =>
    exact foldl_last (configured? · rule property)
      (fun tables entry => configured?_mergeTable tables entry rule property) f.properties _
  | environment e | options o => rfl

end Contribution

/-! ## Where a setting comes from -/

theorem Setting.key_injective : Function.Injective Setting.key := by
  intro x y h
  cases x <;> cases y <;> first | rfl | exact absurd h (by decide)

theorem Setting.mem_all (x : Setting) : x ∈ Setting.all := by cases x <;> decide

theorem Setting.nodup_all : Setting.all.Nodup := by decide

theorem Settings.propertyKey_ne (rule property : String) (x : Setting) :
    Settings.propertyKey rule property ≠ x.key := by
  intro h
  have hhead := congrArg (·.toList.head?) h
  cases x <;> simp [Settings.propertyKey, Provenance.ruleStart, Setting.key] at hhead

/-- The layers of a key with one more on top, unless it is on top already. -/
def Provenance.withSource (layers : List Source) (source : Source) : List Source :=
  if layers.getLast?.any (·.same source) then layers else layers ++ [source]

theorem Provenance.withSource_of_isChain {layers rest : List Source} {source : Source}
    (h : (layers ++ source :: rest).IsChain (fun a b => ¬a.same b)) :
    withSource layers source = layers ++ [source] := by
  obtain ⟨-, -, h⟩ := List.isChain_append.1 h
  rw [withSource, if_neg]
  rw [Option.any_eq_true]
  rintro ⟨a, ha, hsame⟩
  exact h a ha source rfl hsame

theorem Provenance.history_set (p : Provenance) (key : String) (source : Source) :
    (p.set key source).history key = withSource (p.history key) source :=
  p.history_set_self key source

theorem history_foldl_set_of_ne {key : String} {xs : List Setting} (h : ∀ x ∈ xs, key ≠ x.key)
    (sets : Setting → Bool) (source : Setting → Source) (p : Provenance) :
    (xs.foldl (fun p y => if sets y then p.set y.key (source y) else p) p).history key =
      p.history key := by
  refine foldl_unseen (Provenance.history · key) (fun p y hy => ?_) p
  split
  · exact Provenance.history_set_of_ne p (h y hy) _
  · rfl

/-- Recording settings one after the other acts on each key once. -/
theorem history_foldl_set (sets : Setting → Bool) (source : Setting → Source) (p : Provenance)
    (x : Setting) :
    (Setting.all.foldl (fun p y => if sets y then p.set y.key (source y) else p) p).history x.key =
      if sets x then Provenance.withSource (p.history x.key) (source x) else p.history x.key := by
  obtain ⟨below, above, hall⟩ := List.append_of_mem (Setting.mem_all x)
  have hnodup := Setting.nodup_all
  rw [hall, List.nodup_middle, List.nodup_cons, List.mem_append, not_or] at hnodup
  -- only the step for the setting itself acts on its key
  have hother {ys : List Setting} (hx : x ∉ ys) : ∀ y ∈ ys, x.key ≠ y.key :=
    fun y hy hkey => hx (Setting.key_injective hkey ▸ hy)
  have hbelow := history_foldl_set_of_ne (hother hnodup.1.1) sets source p
  have habove := history_foldl_set_of_ne (hother hnodup.1.2) sets source
  rw [hall, List.foldl_append, List.foldl_cons, habove]
  split
  · rw [Provenance.history_set, hbelow]
  · exact hbelow

theorem Layer.history_record (l : Layer) (p : Provenance) (x : Setting) :
    (l.record p).history x.key =
      if l.sets x then Provenance.withSource (p.history x.key) (l.source x)
      else p.history x.key := by
  have hproperties := foldl_unseen (Provenance.history · x.key)
    fun p (e : String × String × PropertyValue) (_ : e ∈ l.properties) =>
      Provenance.history_set_of_ne p (Settings.propertyKey_ne e.1 e.2.1 x).symm l.ruleSource
  rw [record, hproperties, history_foldl_set]

theorem Settings.history_builtIn (x : Setting) :
    builtIn.provenance.history x.key = [.builtIn] := by
  have hset := history_foldl_set (fun _ => true) (fun _ => .builtIn) .empty x
  have hempty : Provenance.empty.history x.key = [] := Std.TreeMap.getD_emptyc
  simp only [if_true, hempty] at hset
  exact hset

theorem Contribution.history_apply (c : Contribution) (s : Settings) (x : Setting) :
    (c.layer.apply s).provenance.history x.key =
      if (c.value? x).isSome then
        Provenance.withSource (s.provenance.history x.key) (c.source x)
      else s.provenance.history x.key := by
  rw [← value?_layer, ← Layer.sets_eq, ← source_layer]
  exact Layer.history_record _ _ _

/-! ## All layers -/

/-- The layers that give a setting a value, as they are recorded. -/
def sourcesOf (x : Setting) (cs : List Contribution) : List Source :=
  (cs.filter fun c => (c.value? x).isSome).map (·.source x)

/-- Layers of which some set a key, none of them twice in a row, are all kept in its history. -/
theorem history_foldl_apply {key : String} {gives : Contribution → Bool}
    {source : Contribution → Source} {cs : List Contribution}
    (hstep : ∀ s : Settings, ∀ c ∈ cs, (c.layer.apply s).provenance.history key =
      if gives c then Provenance.withSource (s.provenance.history key) (source c)
      else s.provenance.history key) :
    ∀ s : Settings,
      (s.provenance.history key ++ (cs.filter gives).map source).IsChain (fun a b => ¬a.same b) →
      (cs.foldl (fun s c => c.layer.apply s) s).provenance.history key =
        s.provenance.history key ++ (cs.filter gives).map source := by
  induction cs with
  | nil => intro s _; simp
  | cons c cs ih =>
    intro s hchain
    have hc := hstep s c List.mem_cons_self
    have ih := ih fun s d hd => hstep s d (List.mem_cons_of_mem c hd)
    rw [List.foldl_cons, List.filter_cons] at *
    by_cases hgives : gives c
    · rw [if_pos hgives] at hc hchain ⊢
      rw [List.map_cons] at hchain ⊢
      rw [Provenance.withSource_of_isChain hchain] at hc
      rw [ih _ (by rw [hc]; simpa using hchain), hc, List.append_assoc]
      rfl
    · rw [if_neg hgives] at hc hchain ⊢
      rw [ih _ (by rwa [hc]), hc]

/-- The height of a layer. -/
def Source.level : Source → Nat
  | builtIn => 0
  | userFile _ => 1
  | projectFile _ => 2
  | environment _ => 3
  | option _ => 4

theorem Source.level_eq_of_same {a b : Source} (h : a.same b) : a.level = b.level := by
  cases a <;> cases b <;> first | rfl | simp [same] at h

def Contribution.level : Contribution → Nat
  | file source _ => source.level
  | environment _ => 3
  | options _ => 4

theorem Contribution.level_source {c : Contribution} {x : Setting} (h : (c.value? x).isSome) :
    (c.source x).level = c.level := by
  cases c with
  | environment e => cases x <;> first | rfl | simp [value?] at h
  | file source f | options o => rfl

theorem Contribution.level_ofFile? (kind : FileLayer) (file : Option ConfigFile)
    (c : Contribution) (h : ofFile? kind file = some c) :
    c.level = match kind with | .user => 1 | .project => 2 := by
  obtain ⟨file, -, h⟩ := Option.bind_eq_some_iff.1 h
  obtain ⟨f, -, rfl⟩ := Option.map_eq_some_iff.1 h
  cases kind <;> rfl

theorem SettingsInput.pairwise_level (i : SettingsInput) :
    i.contributions.Pairwise (fun c d => c.level < d.level) ∧
      ∀ c ∈ i.contributions, 0 < c.level := by
  rw [contributions]
  have huser (c) := Contribution.level_ofFile? .user i.user c
  have hproject (c) := Contribution.level_ofFile? .project i.project c
  have henvironment : (Contribution.environment i.environment).level = 3 := rfl
  have hoptions : (Contribution.options i.overrides).level = 4 := rfl
  cases hu : Contribution.ofFile? .user i.user <;>
    cases hp : Contribution.ofFile? .project i.project <;>
    simp_all

theorem SettingsInput.isChain_sources (i : SettingsInput) {gives : Contribution → Bool}
    {source : Contribution → Source} (hlevel : ∀ c, gives c → (source c).level = c.level) :
    (Source.builtIn :: (i.contributions.filter gives).map source).IsChain
      (fun a b => ¬a.same b) := by
  obtain ⟨hlevels, hpositive⟩ := i.pairwise_level
  have hsources : ((i.contributions.filter gives).map source).Pairwise
      fun a b => a.level < b.level := by
    rw [List.pairwise_map, List.pairwise_filter]
    refine hlevels.imp fun hlt hc hd => ?_
    rwa [hlevel _ hc, hlevel _ hd]
  have hbuiltIn : ∀ a ∈ (i.contributions.filter gives).map source,
      Source.builtIn.level < a.level := by
    intro a ha
    obtain ⟨c, hc, rfl⟩ := List.mem_map.1 ha
    obtain ⟨hc, hgives⟩ := List.mem_filter.1 hc
    rw [hlevel c hgives]
    exact hpositive c hc
  refine ((List.pairwise_cons.2 ⟨hbuiltIn, hsources⟩).imp fun hlt hsame => ?_).isChain
  exact absurd (Source.level_eq_of_same hsame) (by omega)

/-- The settings after all layers, without what is not a setting. -/
def SettingsInput.applied (i : SettingsInput) : Settings :=
  i.contributions.foldl (fun s c => c.layer.apply s) Settings.builtIn

theorem SettingsInput.resolve_eq (i : SettingsInput) :
    i.resolve = okUnless i.faults.head? { i.applied with
      ignored := (i.ignore.map (·.patterns)).getD [], loadedFiles := i.paths } := by
  rw [resolve, layers_eq, applied]
  refine (okUnless_bind_pure _ _ _).trans ?_
  rw [List.foldl_map]

theorem SettingsInput.value_applied (i : SettingsInput) (x : Setting) :
    i.applied.value x = ((i.contributions.filterMap (·.value? x)).getLast?).getD x.builtIn := by
  have hstep (s : Settings) (c : Contribution) :
      some ((c.layer.apply s).value x) = (c.value? x).or (some (s.value x)) := by
    rw [Layer.value_apply, Contribution.value?_layer]
    cases c.value? x <;> rfl
  have h := foldl_last (fun s : Settings => some (s.value x)) hstep i.contributions
    Settings.builtIn
  have hbuiltIn : Settings.builtIn.value x = x.builtIn := by cases x <;> rfl
  rw [hbuiltIn, Option.or_some] at h
  exact Option.some.inj h

theorem SettingsInput.history_applied (i : SettingsInput) (x : Setting) :
    i.applied.provenance.history x.key = .builtIn :: sourcesOf x i.contributions := by
  have h := history_foldl_apply (fun s c (_ : c ∈ i.contributions) => c.history_apply s x)
    Settings.builtIn
  rw [Settings.history_builtIn] at h
  exact h (i.isChain_sources fun _ => Contribution.level_source)

theorem SettingsInput.configured?_applied (i : SettingsInput) (rule property : String) :
    configured? i.applied.properties rule property =
      (i.contributions.filterMap (·.property? rule property)).getLast? := by
  have h := foldl_last (fun s : Settings => configured? s.properties rule property)
    (fun s c => Contribution.configured?_apply c s rule property) i.contributions Settings.builtIn
  have hbuiltIn : configured? Settings.builtIn.properties rule property = none := rfl
  rw [hbuiltIn, Option.or_none] at h
  exact h

/-- Resolving fails exactly if a layer is invalid on its own, with the fault of the lowest such
layer. Otherwise each setting has the value of the last layer that gives it one, its history is the
built-in value and then exactly those layers, and a property of a rule is configured if a file
sets it, as the last such file does. -/
theorem resolve_layering (i : SettingsInput) :
    match i.faults with
    | fault :: _ => i.resolve = .error fault
    | [] => ∃ s, i.resolve = .ok s ∧
        (∀ x, s.value x = ((i.contributions.filterMap (·.value? x)).getLast?).getD x.builtIn) ∧
        (∀ x, s.provenance.history x.key = .builtIn :: sourcesOf x i.contributions) ∧
        ∀ rule property, configured? s.properties rule property =
          (i.contributions.filterMap (·.property? rule property)).getLast? := by
  have hresolve := i.resolve_eq
  cases hfaults : i.faults with
  | cons fault rest => rw [hresolve, hfaults]; rfl
  | nil =>
    rw [hfaults] at hresolve
    refine ⟨_, hresolve, fun x => ?_, i.history_applied, i.configured?_applied⟩
    rw [← i.value_applied]
    cases x <;> rfl

end CodeGauge

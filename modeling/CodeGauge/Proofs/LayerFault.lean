import CodeGauge.Settings.Resolve

/-!
# What makes a layer invalid

A layer is read on its own: a configuration file has to be a text, a document of the right types,
and its language, its least priority and its properties have to be in range; of the environment only
the least priority can be wrong. `fault?` finds the first of these without building anything, and
reading succeeds exactly if there is none (`ConfigFile.layer_eq`, `Environment.layer_eq`).

A reading is an `okUnless`: its value does not depend on the fault that stops it. Readings one after
the other stop at the first fault (`okUnless_bind`, `mapM_okUnless`).
-/

namespace CodeGauge

/-! ## Readings -/

section Readings

variable {ε α β : Type}

/-- A value, unless there is a fault. -/
def okUnless (fault : Option ε) (value : α) : Except ε α :=
  match fault with
  | some e => .error e
  | none => .ok value

/-- Two readings one after the other: the fault of the first comes before that of the second. -/
theorem okUnless_bind {first second : Option ε} {value : α} {f : α → Except ε β} {result : β}
    (h : f value = okUnless second result) :
    (okUnless first value >>= f) = okUnless (first.or second) result := by
  cases first with
  | some e => rfl
  | none => exact h

theorem okUnless_bind_pure (fault : Option ε) (value : α) (g : α → β) :
    (okUnless fault value >>= fun a => pure (g a)) = okUnless fault (g value) := by
  cases fault <;> rfl

theorem mapM_okUnless {f : α → Except ε β} {fault : α → Option ε} {value : α → β}
    (h : ∀ a, f a = okUnless (fault a) (value a)) (as : List α) :
    as.mapM f = okUnless (as.findSome? fault) (as.map value) := by
  induction as with
  | nil => rfl
  | cons a as ih =>
    rw [List.mapM_cons, h, ih, List.findSome?_cons]
    cases fault a with
    | some e => rfl
    | none => exact okUnless_bind_pure _ _ (value a :: ·)

/-- A value if there is one, else a fault. -/
def okOr (value? : Option α) (fault : ε) : Except ε α :=
  match value? with
  | some a => .ok a
  | none => .error fault

theorem mapM_okOr {f : α → Except ε β} {fault : α → ε} {value? : α → Option β}
    (h : ∀ a, f a = okOr (value? a) (fault a))
    (as : List α) :
    as.mapM f = okUnless ((as.find? fun a => (value? a).isNone).map fault)
      (as.filterMap value?) := by
  induction as with
  | nil => rfl
  | cons a as ih =>
    rw [List.mapM_cons, h, ih, List.find?_cons, List.filterMap_cons]
    cases value? a with
    | none => rfl
    | some b => exact okUnless_bind_pure _ _ (b :: ·)

theorem optionMapM_okOr {f : α → Except ε β} {fault : α → ε} {value? : α → Option β}
    (h : ∀ a, f a = okOr (value? a) (fault a))
    (o : Option α) :
    o.mapM f = okUnless ((o.filter fun a => (value? a).isNone).map fault) (o.bind value?) := by
  cases o with
  | none => rfl
  | some a =>
    rw [Option.mapM_some, h, Option.bind_some, Option.filter_some]
    cases value? a <;> rfl

end Readings

/-! ## Values out of range -/

namespace Language

/-- The texts that mean a language, in lower case. -/
def words : Language → List String
  | java => ["java"]
  | python => ["python", "py"]
  | go => ["go"]
  | rust => ["rust", "rs"]

/-- The language that a text means in any case. -/
def ofWord? (text : String) : Option Language :=
  all.find? fun l => Text.lowerCase text ∈ l.words

theorem parse_eq (text : String) :
    parse text = okOr (ofWord? text) (.unsupportedLanguage text) := by
  unfold parse ofWord? all
  split <;> simp_all [words, okOr]

end Language

namespace Priority

theorem ofText?_digits {digits : List Char} (hne : digits ≠ [])
    (hdigits : ∀ d ∈ digits, d.isDigit) :
    ofText? (String.ofList digits) = ofLevel? (Nat.ofDigitChars 10 digits 0) := by
  have hall : digits.all Char.isDigit := List.all_eq_true.2 hdigits
  simp only [ofText?, String.toList_ofList]
  split
  · exact absurd (hdigits '+' List.mem_cons_self) (by decide)
  · simp only [Nat.ofDigitChars_eq_foldl, Nat.mul_comm 10]
    simp [hne, hall]

end Priority

theorem Text.isBlank_of_isDigit {c : Char} (h : c.isDigit) : Text.isBlank c = false := by
  simp only [Char.isDigit, Bool.and_eq_true, decide_eq_true_eq, UInt32.le_iff_toNat_le] at h
  have hlow : 48 ≤ c.toNat := h.1
  have hhigh : c.toNat ≤ 57 := h.2
  simp [Text.isBlank]
  omega

theorem Text.trim_digits {digits : List Char} (h : ∀ d ∈ digits, d.isDigit) :
    Text.trim (String.ofList digits) = String.ofList digits := by
  have hdrop {cs : List Char} (h : ∀ d ∈ cs, d.isDigit) : cs.dropWhile Text.isBlank = cs := by
    cases cs with
    | nil => rfl
    | cons d ds => simp [Text.isBlank_of_isDigit (h d List.mem_cons_self)]
  rw [Text.trim, Text.trimChars, String.toList_ofList, hdrop h, Text.dropEndWhile, hdrop (by simpa),
    List.reverse_reverse]

/-- A level written as a number is read back. -/
theorem Layer.priority_toString (origin : String) (level : Nat) :
    Layer.priority origin (toString level) =
      okOr (Priority.ofLevel? level) (.priorityRange origin (toString level)) := by
  have hdigits : ∀ d ∈ Nat.toDigits 10 level, d.isDigit :=
    fun d hd => Nat.isDigit_of_mem_toDigits (by decide) (by decide) hd
  have hread : Priority.ofText? (Text.trim (toString level)) = Priority.ofLevel? level := by
    rw [Nat.toString_eq_ofList_toDigits, Text.trim_digits hdigits,
      Priority.ofText?_digits Nat.toDigits_ne_nil hdigits, Nat.ofDigitChars_ten_toDigits]
  rw [Layer.priority, hread]
  cases Priority.ofLevel? level <;> rfl

/-! ## Configuration files -/

namespace FileSettings

/-- The language that a file sets, if it is one. -/
def language? (f : FileSettings) : Option Language := f.language.bind Language.ofWord?

/-- The least priority that a file sets, if it is one. -/
def minPriority? (f : FileSettings) : Option Priority := f.minPriority.bind Priority.ofLevel?

/-- The properties of rules that a file sets. -/
def properties (f : FileSettings) : List (String × List (String × PropertyValue)) :=
  f.rules.map fun (rule, table) =>
    (rule, table.filterMap fun (property, value) =>
      (PropertyValue.ofToml? value).map fun value => (property, value))

/-- The first property in the table of a rule whose value has an unsupported shape. -/
def shapeFault? (source : Source) (rule : String) (table : List (String × Toml.Value)) :
    Option ConfigFault :=
  (table.find? fun (_, value) => (PropertyValue.ofToml? value).isNone).map fun (property, _) =>
    .propertyShape source.words rule property

/-- What is wrong with the values in a file: an unknown language, a least priority that is none of
the five levels, or the first property of an unsupported shape. -/
def fault? (source : Source) (f : FileSettings) : Option ConfigFault :=
  .or ((f.language.filter fun text => (Language.ofWord? text).isNone).map .unsupportedLanguage) <|
  .or ((f.minPriority.filter fun level => (Priority.ofLevel? level).isNone).map fun level =>
    .priorityRange source.words (toString level)) <|
  f.rules.findSome? fun (rule, table) => shapeFault? source rule table

/-- The layer of a file without a fault. -/
def layer (source : Source) (f : FileSettings) : Layer where
  language := f.language?
  format := f.format
  quiet := f.quiet
  ruleSets := f.ruleSets
  minPriority := f.minPriority?
  aggregation := f.aggregation.map Rollup.parse
  includes := f.includes
  excludes := f.excludes
  rules := f.properties
  source := fun _ => source
  ruleSource := source

end FileSettings

theorem Layer.property_eq (source : Source) (rule : String) (entry : String × Toml.Value) :
    Layer.property source rule entry =
      okOr ((PropertyValue.ofToml? entry.2).map fun value => (entry.1, value))
        (.propertyShape source.words rule entry.1) := by
  rw [Layer.property]
  cases PropertyValue.ofToml? entry.2 <;> rfl

theorem Layer.properties_eq (source : Source) (rules : List (String × List (String × Toml.Value))) :
    (rules.mapM fun (rule, table) => do return (rule, ← table.mapM (property source rule))) =
      okUnless (rules.findSome? fun (rule, table) => FileSettings.shapeFault? source rule table)
        (rules.map fun (rule, table) =>
          (rule, table.filterMap fun (property, value) =>
            (PropertyValue.ofToml? value).map fun value => (property, value))) := by
  refine mapM_okUnless (fun (rule, table) => ?_) rules
  have htable := mapM_okOr (property_eq source rule) table
  simp only [Option.isNone_map] at htable
  simp only [htable]
  exact okUnless_bind_pure _ _ (Prod.mk rule)

theorem Layer.ofFile_eq (source : Source) (f : FileSettings) :
    Layer.ofFile source f = okUnless (f.fault? source) (f.layer source) := by
  have hlanguage := optionMapM_okOr Language.parse_eq f.language
  have hpriority := optionMapM_okOr (Layer.priority_toString source.words) f.minPriority
  have hrules := Layer.properties_eq source f.rules
  unfold Layer.ofFile
  rw [hlanguage]
  refine okUnless_bind ?_
  rw [hpriority]
  refine okUnless_bind ?_
  rw [hrules]
  exact okUnless_bind_pure _ _ _

namespace ConfigFile

/-- The settings in a configuration file, if it is a text and a document of the right types. -/
def found? (file : ConfigFile) : Option FileSettings :=
  (String.fromUTF8? file.content).bind fun text => (Toml.parse? text).bind FileSettings.ofToml?

/-- What is wrong with a configuration file: it is no text, no document of the right types, or one
of its values is out of range. -/
def fault? (kind : FileLayer) (file : ConfigFile) : Option ConfigFault :=
  if (String.fromUTF8? file.content).isNone then some (.unreadableFile kind.name file.path)
  else match file.found? with
    | none => some (.malformedFile kind.name file.path)
    | some f => f.fault? (kind.source file.path)

theorem layer_eq (kind : FileLayer) (file : Option ConfigFile) :
    file.mapM (·.layer kind) =
      okUnless (file.bind (·.fault? kind))
        (file.bind fun file => file.found?.map (·.layer (kind.source file.path))) := by
  cases file with
  | none => rfl
  | some file =>
    rw [Option.mapM_some, layer]
    simp only [Option.bind_some, fault?, found?]
    cases String.fromUTF8? file.content with
    | none => rfl
    | some text =>
      simp only [Option.bind_some]
      cases (Toml.parse? text).bind FileSettings.ofToml? with
      | none => rfl
      | some f =>
        simp only [Layer.ofFile_eq]
        exact okUnless_bind_pure _ _ some

end ConfigFile

/-! ## The environment -/

namespace Environment

/-- The least priority that the environment sets, if it is one. -/
def minPriority? (e : Environment) : Option Priority :=
  e.minPriority.bind fun text => Priority.ofText? (Text.trim text)

/-- What is wrong with the environment: a least priority that is none of the five levels. -/
def fault? (e : Environment) : Option ConfigFault :=
  (e.minPriority.filter fun text => (Priority.ofText? (Text.trim text)).isNone).map
    (.priorityRange minPriorityName)

theorem layer_eq (e : Environment) :
    e.layer = okUnless e.fault?
      { format := e.format, ruleSets := e.ruleSets, minPriority := e.minPriority?, source } := by
  have hread (text : String) : Layer.priority minPriorityName text =
      okOr (Priority.ofText? (Text.trim text)) (.priorityRange minPriorityName text) := by
    rw [Layer.priority]
    cases Priority.ofText? (Text.trim text) <;> rfl
  rw [layer, optionMapM_okOr hread]
  exact okUnless_bind_pure _ _ _

end Environment

namespace SettingsInput

/-- What is wrong with the layers, the lowest layer first. -/
def faults (i : SettingsInput) : List ConfigFault :=
  (i.user.bind (·.fault? .user)).toList ++ (i.project.bind (·.fault? .project)).toList ++
    i.environment.fault?.toList

end SettingsInput

end CodeGauge

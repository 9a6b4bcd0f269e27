import CodeGauge.Report.Format
import CodeGauge.Settings.Basic
import CodeGauge.Settings.FileSettings
import CodeGauge.Toml.Document

/-!
# Layers of settings

A layer sets some of the settings. Applying it gives what it sets the values of the layer and
records the layer as where they come from; all else stays as it was. A layer is made from a
configuration file, from the environment or from the options of a command.
-/

namespace CodeGauge

/-- Values for some of the settings. No value and an empty list of patterns set nothing. -/
structure Layer where
  language : Option Language := none
  format : Option String := none
  quiet : Option Bool := none
  ruleSets : Option String := none
  minPriority : Option Priority := none
  aggregation : Option Rollup := none
  includes : List String := []
  excludes : List String := []
  /-- Properties of rules; a rule may have none. -/
  rules : List (String × List (String × PropertyValue)) := []
  /-- Where a setting comes from. -/
  source : Setting → Source
  /-- Where the properties of rules come from. -/
  ruleSource : Source := .builtIn

namespace Layer

/-- Whether a layer sets a setting. -/
def sets (l : Layer) : Setting → Bool
  | .language => l.language.isSome
  | .format => l.format.isSome
  | .quiet => l.quiet.isSome
  | .ruleSets => l.ruleSets.isSome
  | .minPriority => l.minPriority.isSome
  | .aggregation => l.aggregation.isSome
  | .includes => !l.includes.isEmpty
  | .excludes => !l.excludes.isEmpty

/-- The properties that a layer sets, each with its rule. -/
def properties (l : Layer) : List (String × String × PropertyValue) :=
  l.rules.flatMap fun (rule, table) => table.map fun (property, value) => (rule, property, value)

/-- Records a layer under every key that it sets. -/
def record (l : Layer) (p : Provenance) : Provenance :=
  let p := Setting.all.foldl (fun p x => if l.sets x then p.set x.key (l.source x) else p) p
  l.properties.foldl (fun p (rule, property, _) =>
    p.set (Settings.propertyKey rule property) l.ruleSource) p

/-- Adds the properties of one rule to those of lower layers. -/
def mergeTable (tables : Std.TreeMap String RuleProperties)
    (entry : String × List (String × PropertyValue)) : Std.TreeMap String RuleProperties :=
  tables.insert entry.1 (entry.2.foldl (fun t (property, value) => t.insert property value)
    (tables.getD entry.1 ∅))

/-- A pattern list unless it sets nothing. -/
def patternsOr (patterns others : List String) : List String :=
  if patterns.isEmpty then others else patterns

/-- Applies a layer on top of settings. -/
def apply (l : Layer) (s : Settings) : Settings :=
  { s with
    language := l.language <|> s.language
    format := l.format.getD s.format
    quiet := l.quiet.getD s.quiet
    ruleSets := l.ruleSets.getD s.ruleSets
    minPriority := l.minPriority.getD s.minPriority
    aggregation := l.aggregation.getD s.aggregation
    includes := patternsOr l.includes s.includes
    excludes := patternsOr l.excludes s.excludes
    properties := l.rules.foldl mergeTable s.properties
    provenance := l.record s.provenance }

/-- The least priority that a text gives, with blanks around it. -/
def priority (origin text : String) : Except ConfigFault Priority :=
  match Priority.ofText? (Text.trim text) with
  | some p => .ok p
  | none => .error (.priorityRange origin text)

/-! ## Configuration files -/

/-- The property of a rule in a file. -/
def property (source : Source) (rule : String) (entry : String × Toml.Value) :
    Except ConfigFault (String × PropertyValue) :=
  match PropertyValue.ofToml? entry.2 with
  | some value => .ok (entry.1, value)
  | none => .error (.propertyShape source.words rule entry.1)

/-- The layer of a configuration file. -/
def ofFile (source : Source) (f : FileSettings) : Except ConfigFault Layer := do
  let language ← f.language.mapM Language.parse
  let minPriority ← f.minPriority.mapM fun level => priority source.words (toString level)
  let rules ← f.rules.mapM fun (rule, table) => do
    return (rule, ← table.mapM (property source rule))
  return {
    language, minPriority, rules
    format := f.format
    quiet := f.quiet
    ruleSets := f.ruleSets
    aggregation := f.aggregation.map Rollup.parse
    includes := f.includes
    excludes := f.excludes
    source := fun _ => source
    ruleSource := source }

end Layer

/-- The configuration files that are looked for. -/
inductive FileLayer where
  | user
  | project
  deriving DecidableEq

namespace FileLayer

def name : FileLayer → String
  | user => "user"
  | project => "project"

def source : FileLayer → String → Source
  | user => .userFile
  | project => .projectFile

end FileLayer

/-- A configuration file as found. -/
structure ConfigFile where
  path : String
  content : ByteArray

/-- The layer of a configuration file as found. It has to be a text, a document, and of the right
types, in this order. -/
def ConfigFile.layer (file : ConfigFile) (kind : FileLayer) : Except ConfigFault Layer :=
  match String.fromUTF8? file.content with
  | none => .error (.unreadableFile kind.name file.path)
  | some text =>
    match (Toml.parse? text).bind FileSettings.ofToml? with
    | none => .error (.malformedFile kind.name file.path)
    | some found => Layer.ofFile (kind.source file.path) found

/-! ## Environment and options -/

/-- The variables of the environment that set something. -/
structure Environment where
  ruleSets : Option String := none
  format : Option String := none
  minPriority : Option String := none

namespace Environment

def ruleSetsName : String := "TALLY_RULESETS"

def formatName : String := "TALLY_FORMAT"

def minPriorityName : String := "TALLY_MIN_PRIORITY"

def source : Setting → Source
  | .ruleSets => .environment ruleSetsName
  | .format => .environment formatName
  | .minPriority => .environment minPriorityName
  | _ => .builtIn

/-- The layer of the environment. -/
def layer (e : Environment) : Except ConfigFault Layer := do
  let minPriority ← e.minPriority.mapM (Layer.priority minPriorityName)
  return { format := e.format, ruleSets := e.ruleSets, minPriority, source }

end Environment

/-- The settings given by the options of a command. -/
structure Overrides where
  language : Option Language := none
  format : Option OutputFormat := none
  quiet : Bool := false
  ruleSets : Option String := none
  minPriority : Option Priority := none
  aggregation : Option Rollup := none
  includes : List String := []
  excludes : List String := []

namespace Overrides

/-- The option of a setting. -/
def optionName : Setting → String
  | .language => "--lang"
  | .format => "--format"
  | .quiet => "--quiet"
  | .ruleSets => "--rulesets"
  | .minPriority => "--min-priority"
  | .aggregation => "--aggregation"
  | .includes => "--include"
  | .excludes => "--exclude"

/-- The layer of options. An option that is not given sets nothing. -/
def layer (o : Overrides) : Layer where
  language := o.language
  format := o.format.map (·.name)
  quiet := if o.quiet then some true else none
  ruleSets := o.ruleSets
  minPriority := o.minPriority
  aggregation := o.aggregation
  includes := o.includes
  excludes := o.excludes
  source := fun x => .option (optionName x)

end Overrides

end CodeGauge

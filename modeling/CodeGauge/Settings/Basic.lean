import CodeGauge.Language
import CodeGauge.Metric.Rollup
import CodeGauge.Rule.RuleSet
import CodeGauge.Settings.Provenance

/-!
# Settings

The settings of a run after every layer has been applied, with the layers each of them comes from.
Eight settings have a value in every run; beside them each rule may have properties.
-/

namespace CodeGauge

/-- A setting that has a value in every run. -/
inductive Setting where
  | language
  | format
  | quiet
  | ruleSets
  | minPriority
  | aggregation
  | includes
  | excludes
  deriving DecidableEq

namespace Setting

def all : List Setting :=
  [language, format, quiet, ruleSets, minPriority, aggregation, includes, excludes]

/-- The dotted key of a setting. -/
def key : Setting → String
  | language => "defaults.lang"
  | format => "defaults.format"
  | quiet => "defaults.quiet"
  | ruleSets => "defaults.rulesets"
  | minPriority => "defaults.min_priority"
  | aggregation => "defaults.aggregation"
  | includes => "targeting.include"
  | excludes => "targeting.exclude"

/-- The setting of a dotted key. -/
def ofKey? (key : String) : Option Setting := all.find? (·.key = key)

end Setting

/-- The settings of a run. -/
structure Settings where
  /-- The language of the sources, to be detected if there is none. -/
  language : Option Language := none
  format : String := "text"
  quiet : Bool := false
  ruleSets : String := "all"
  minPriority : Priority := .low
  aggregation : Rollup := .sum
  includes : List String := []
  excludes : List String := []
  /-- Patterns of the ignore file. -/
  ignored : List String := []
  /-- Properties by rule. -/
  properties : Std.TreeMap String RuleProperties := ∅
  provenance : Provenance := .empty
  /-- Paths of the files that were read. -/
  loadedFiles : List String := []

namespace Settings

/-- The settings before any layer, each with its built-in value. -/
def builtIn : Settings where
  provenance := Setting.all.foldl (fun p setting => p.set setting.key .builtIn) .empty

/-- The exclude patterns with those of the ignore file. -/
def allExcludes (s : Settings) : List String := s.excludes ++ s.ignored

/-- The bundled rules as these settings configure them. -/
def bundle (s : Settings) : Bundle := ⟨s.minPriority, s.properties⟩

/-- The key that stands for a property of a rule. -/
def propertyKey (rule property : String) : String := Provenance.ruleStart rule ++ property

end Settings

end CodeGauge

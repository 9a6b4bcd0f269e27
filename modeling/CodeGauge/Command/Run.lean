import CodeGauge.Command.Arguments
import CodeGauge.Files.Sources
import CodeGauge.Report.Run
import CodeGauge.Report.Text
import CodeGauge.Settings.Lookup
import CodeGauge.Settings.Summary

/-!
# Running commands

What a command prints and how it ends, as a function of what it finds around it. Faults in the
configuration end a command before any source is looked for. The output of a check tells how long it
took, so it is a function of that.
-/

namespace CodeGauge

/-- When a command ran and for how long. -/
structure Timing where
  timestamp : String
  elapsedMs : Nat

namespace Timing

/-- The timestamp of a time in seconds since the start of 1970. -/
def stamp (seconds : Nat) : String := "1970-01-01T00:00:00Z+" ++ toString seconds ++ "s"

/-- Files per second to one decimal place, zero if no time passed. -/
def rate (t : Timing) (files : Nat) : Float :=
  if t.elapsedMs = 0 then 0
  else (Float.ofNat files / (Float.ofNat t.elapsedMs / 1000) * 10).round / 10

end Timing

/-- How a command line ends. -/
inductive Outcome where
  /-- It is no command. -/
  | usage
  | failed (cause : Failure)
  | finished (exitCode : Nat) (output : Timing → String)

/-- A check that has been run. -/
structure CheckRun where
  sources : Sources
  format : OutputFormat
  ruleSets : RuleSets
  report : Report

namespace CheckRun

def metadata (c : CheckRun) (t : Timing) : CheckMetadata :=
  let parsed := c.sources.parsed.length
  { language := c.sources.language.name
    root := c.sources.root
    ruleSets := c.ruleSets.sets.map (·.name)
    ruleCount := c.ruleSets.ruleCount
    filesParsed := parsed
    filesSkipped := c.sources.files.length - parsed
    violationCount := c.report.violations.length
    timestamp := t.timestamp
    elapsedMs := t.elapsedMs
    filesPerSecond := t.rate parsed }

/-- What a check prints. -/
def output (c : CheckRun) (t : Timing) : String :=
  match c.format with
  | .text => c.report.checkText (c.metadata t)
  | .json => (c.report.checkJson (c.metadata t)).written
  | .sarif => (Sarif.log c.report c.ruleSets).written

end CheckRun

/-- A metric listing that has been made. -/
structure MetricsRun where
  sources : Sources
  format : OutputFormat
  aggregation : Rollup
  listing : Listing

namespace MetricsRun

def metadata (m : MetricsRun) (t : Timing) : MetricsMetadata :=
  let parsed := m.sources.parsed.length
  { language := m.sources.language.name
    root := m.sources.root
    aggregation := m.aggregation.name
    filesParsed := parsed
    filesSkipped := m.sources.files.length - parsed
    timestamp := t.timestamp }

/-- What a metric listing prints. -/
def output (m : MetricsRun) (t : Timing) : String :=
  match m.format with
  | .json => (m.listing.metricsJson (m.metadata t)).written
  | _ => m.listing.metricsText (m.metadata t)

end MetricsRun

namespace Surroundings

/-- The place that an analysis is rooted at. -/
def root (s : Surroundings) (path : String) : Except Failure (List String) :=
  match s.tree.place? s.workingDirectory path with
  | some place => .ok place
  | none => .error (.noFiles path)

/-- The directory whose settings a command is about. -/
def directory (s : Surroundings) (path : Option String) : Except Failure String :=
  let path := path.getD "."
  match s.tree.place? s.workingDirectory path with
  | some place => .ok (FileTree.pathOf place)
  | none => .error (.config (.invalidPath path))

def sources (s : Surroundings) (root : List String) (c : Settings) : Except Failure Sources :=
  Sources.find s.tree s.workingDirectory root c.language c.includes c.allExcludes

def format (c : Settings) : Except Failure OutputFormat :=
  (OutputFormat.parse c.format).mapError Failure.config

/-- Applies the rules of the settings to the sources below a path. -/
def check (s : Surroundings) (path : String) (o : Overrides) : Except Failure CheckRun := do
  let root ← s.root path
  let c ← s.settings (FileTree.pathOf root) o
  let format ← format c
  let ruleSets ← resolveRuleSets c.ruleSets c.bundle.factory
  let sources ← s.sources root c
  return { sources, format, ruleSets, report := ruleSets.reportAll sources.parsed }

/-- Lists the metric values of the sources below a path. -/
def metrics (s : Surroundings) (path : String) (o : Overrides) : Except Failure MetricsRun := do
  let root ← s.root path
  let c ← s.settings (FileTree.pathOf root) o
  let format ← format c
  if format = .sarif then throw (.config .metricsFormat)
  let sources ← s.sources root c
  let listing := .concat (sources.parsed.map fun (file, tree) =>
    (Listing.collect file tree c.aggregation ∅).1)
  return { sources, format, aggregation := c.aggregation, listing }

/-- Lists the rules that the settings resolve to. -/
def rules (s : Surroundings) (path : Option String) (o : Overrides) : Except Failure String := do
  let c ← s.settings (← s.directory path) o
  return (← resolveRuleSets c.ruleSets c.bundle.factory).text

/-- The names of all bundled rules. -/
def ruleNames : List String := (Bundle.designRules ++ Bundle.metricRules).map (·.name)

/-- Explains the properties of a bundled rule. -/
def explain (s : Surroundings) (rule : String) (path : Option String) : Except Failure String := do
  let c ← s.settings (← s.directory path) {}
  if ruleNames.contains rule then return c.explain rule
  else throw (.config (.unknownRule rule))

/-- Exit code of a check that is to fail on violations and found some. -/
def violationsExitCode : Nat := 2

/-- Runs a command: its exit code and what it prints. -/
def execute (s : Surroundings) : Command → Except Failure (Nat × (Timing → String))
  | .check path overrides failOnViolation => do
    let c ← s.check path overrides
    let found := failOnViolation && !c.report.violations.isEmpty
    return (if found then violationsExitCode else 0, c.output)
  | .metrics path overrides => do return (0, (← s.metrics path overrides).output)
  | .rules path overrides => do
    let text ← s.rules path overrides
    return (0, fun _ => text)
  | .showSettings path => do
    let c ← s.settings (← s.directory path) {}
    return (0, fun _ => c.overview)
  | .explainRule rule path => do
    let text ← s.explain rule path
    return (0, fun _ => text)

/-- How a command line ends. -/
def run (s : Surroundings) (line : List String) : Outcome :=
  match Command.parse? line with
  | none => .usage
  | some command =>
    match s.execute command with
    | .error cause => .failed cause
    | .ok (exitCode, output) => .finished exitCode output

end Surroundings

end CodeGauge

import CodeGauge.Json
import CodeGauge.Report.Violation
import CodeGauge.Report.Listing
import CodeGauge.Rule.RuleSet

/-!
# Reports as documents

The JSON forms of check reports and metric listings, and the SARIF form of check reports.
-/

namespace CodeGauge

/-- What a check report says about its run. -/
structure CheckMetadata where
  language : String
  root : String
  ruleSets : List String
  ruleCount : Nat
  filesParsed : Nat
  filesSkipped : Nat
  violationCount : Nat
  timestamp : String
  elapsedMs : Nat
  filesPerSecond : Float

/-- What a metric listing says about its run. -/
structure MetricsMetadata where
  language : String
  root : String
  aggregation : String
  filesParsed : Nat
  filesSkipped : Nat
  timestamp : String

namespace Violation

/-- A violation as an object; one that is on no declaration has no such member. -/
def json (v : Violation) : Json :=
  .object <|
    [("rule", .string v.rule), ("file", .string v.file), ("begin_line", .integer v.firstLine),
      ("end_line", .integer v.lastLine)] ++
    (v.declaration.toList.map fun d => ("declaration", .string d)) ++
    [("score", .string v.score), ("message", .string v.message),
      ("priority", .integer v.priority.level)]

end Violation

def CheckMetadata.json (m : CheckMetadata) : Json :=
  .object
    [("language", .string m.language), ("root", .string m.root),
      ("rulesets", .array (m.ruleSets.map .string)), ("rule_count", .integer m.ruleCount),
      ("files_parsed", .integer m.filesParsed), ("files_skipped", .integer m.filesSkipped),
      ("violation_count", .integer m.violationCount), ("timestamp", .string m.timestamp),
      ("elapsed_ms", .integer m.elapsedMs), ("files_per_second", .number m.filesPerSecond)]

/-- A check report as a document. -/
def Report.checkJson (r : Report) (m : CheckMetadata) : Json :=
  .object [("metadata", m.json), ("violations", .array (r.violations.map (·.json)))]

def MetricsMetadata.json (m : MetricsMetadata) : Json :=
  .object
    [("language", .string m.language), ("root", .string m.root),
      ("aggregation", .string m.aggregation), ("files_parsed", .integer m.filesParsed),
      ("files_skipped", .integer m.filesSkipped), ("timestamp", .string m.timestamp)]

/-- The members of an entry of a listing. -/
def OperationMetrics.members (o : OperationMetrics) : List (String × Json) :=
  [("name", .string o.name), ("file", .string o.file), ("begin_line", .integer o.firstLine),
    ("end_line", .integer o.lastLine),
    ("metrics", .object (o.metrics.toList.map fun (name, value) => (name, .number value)))]

def OperationMetrics.json (o : OperationMetrics) : Json := .object o.members

def TypeMetrics.json (t : TypeMetrics) : Json :=
  .object (t.members ++ [("operations", .array (t.operations.map (·.json)))])

/-- A listing as a document. -/
def Listing.metricsJson (l : Listing) (m : MetricsMetadata) : Json :=
  .object
    [("metadata", m.json), ("types", .array (l.types.map (·.json))),
      ("functions", .array (l.functions.map (·.json)))]

/-! ## SARIF -/

namespace Sarif

def schema : String :=
  "https://raw.githubusercontent.com/oasis-tcs/sarif-spec/main/sarif-2.1/schema/" ++
    "sarif-schema-2.1.0.json"

/-- The level of results of a priority. -/
def level : Priority → String
  | .high | .mediumHigh => "error"
  | .medium => "warning"
  | .mediumLow | .low => "note"

def rule (r : Rule) : Json :=
  .object
    [("id", .string r.name), ("name", .string r.name),
      ("shortDescription", .object [("text", .string r.message)]),
      ("defaultConfiguration", .object [("level", .string (level r.priority))])]

/-- The place of a rule among the rules of a run, the first place if it is not among them. -/
def ruleIndex (rules : List Rule) (name : String) : Nat :=
  (rules.findIdx? (·.name = name)).getD 0

/-- A file as an address, with slashes only. -/
def address (file : String) : String :=
  String.ofList (file.toList.map fun c => if c = '\\' then '/' else c)

def result (rules : List Rule) (v : Violation) : Json :=
  .object
    [("ruleId", .string v.rule), ("ruleIndex", .integer (ruleIndex rules v.rule)),
      ("level", .string (level v.priority)), ("message", .object [("text", .string v.message)]),
      ("locations", .array [.object [("physicalLocation", .object
        [("artifactLocation", .object [("uri", .string (address v.file))]),
          ("region", .object [("startLine", .integer v.firstLine),
            ("endLine", .integer v.lastLine)])])]])]

/-- A report of a run as a SARIF log. -/
def log (report : Report) (ruleSets : RuleSets) : Json :=
  let rules := ruleSets.allRules
  .object
    [("$schema", .string schema), ("version", .string "2.1.0"),
      ("runs", .array [.object
        [("tool", .object [("driver", .object
            [("name", .string "tally"), ("version", .string "0.1.0"),
              ("rules", .array (rules.map rule))])]),
          ("results", .array (report.violations.map (result rules)))]])]

end Sarif

end CodeGauge

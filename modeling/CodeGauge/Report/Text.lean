import CodeGauge.Report.Document

/-!
# Reports as text

The readable forms of check reports, metric listings and resolved rule sets. Columns are padded by
characters; the line under a file's heading is as long as the heading has bytes.
-/

namespace CodeGauge

namespace Text

/-- A text with spaces before it up to a width. -/
def alignRight (width : Nat) (s : String) : String :=
  String.ofList (List.replicate (width - s.length) ' ') ++ s

/-- A text with spaces after it up to a width. -/
def alignLeft (width : Nat) (s : String) : String :=
  s ++ String.ofList (List.replicate (width - s.length) ' ')

/-- A line of dashes. -/
def rule (width : Nat) : String := String.ofList (List.replicate width '-')

/-- Lines, each with its end. -/
def lines (ls : List String) : String := String.join (ls.map (· ++ "\n"))

end Text

open Text

namespace Violation

/-- A violation as a line under its file. -/
def line (v : Violation) : String :=
  "  " ++ alignRight 5 (toString v.firstLine) ++ "-" ++ alignLeft 5 (toString v.lastLine) ++ " " ++
    alignLeft 24 v.rule ++ " [P" ++ v.priority.text ++ "] " ++ v.message

end Violation

namespace Report

/-- The lines of a check report up to its summary. -/
def checkLines (r : Report) (m : CheckMetadata) : List String :=
  ["Tally Report", "============", "",
    "Language:   " ++ m.language,
    "Root:       " ++ m.root,
    "Rulesets:   " ++ ", ".intercalate m.ruleSets ++ " (" ++ toString m.ruleCount ++ " rules)",
    "Parsed:     " ++ toString m.filesParsed ++ " files",
    "Skipped:    " ++ toString m.filesSkipped ++ " files",
    ""] ++
  r.byFile.flatMap fun (file, violations) =>
    [file, rule file.utf8ByteSize] ++ violations.map (·.line) ++ [""]

/-- The last line of a check report, without the time. -/
def summary (r : Report) : String :=
  toString r.violations.length ++ " violations in " ++ toString r.byFile.length ++
    " files. Completed in "

/-- How long a run took. -/
def elapsed (m : CheckMetadata) : String :=
  Decimal.fixed 2 (Float.ofNat m.elapsedMs / 1000) ++ "s (" ++
    Decimal.fixed 0 m.filesPerSecond ++ " files/sec)"

/-- A check report as text. -/
def checkText (r : Report) (m : CheckMetadata) : String :=
  lines (r.checkLines m ++ [r.summary ++ elapsed m])

end Report

namespace Listing

/-- A value: a dash if the metric does not apply, bare if whole, with two places otherwise. -/
def valueText (value : Float) : String :=
  if value.isNaN then "-"
  else if isWholeNumber value then Decimal.fixed 0 value
  else Decimal.fixed 2 value

def valuesText (values : MetricValues) : String :=
  "  ".intercalate (values.toList.map fun (name, value) => name ++ "=" ++ valueText value)

/-- The lines of an operation. -/
def operationLines (indent : String) (o : OperationMetrics) : List String :=
  [indent ++ o.name ++ " (lines " ++ toString o.firstLine ++ "-" ++ toString o.lastLine ++ ")",
    indent ++ "    " ++ valuesText o.metrics]

/-- The lines of a type and its operations. -/
def typeLines (t : TypeMetrics) : List String :=
  [t.name ++ " (" ++ t.file ++ ":" ++ toString t.firstLine ++ "-" ++ toString t.lastLine ++ ")",
    "    " ++ valuesText t.metrics] ++
  t.operations.flatMap (operationLines "  ") ++ [""]

/-- A listing as text. -/
def metricsText (l : Listing) (m : MetricsMetadata) : String :=
  lines <|
    ["Tally Metrics", "=============", "",
      "Language:    " ++ m.language,
      "Root:        " ++ m.root,
      "Aggregation: " ++ m.aggregation,
      "Parsed:      " ++ toString m.filesParsed ++ " files",
      ""] ++
    (if l.types.isEmpty then [] else ["Types", rule 60] ++ l.types.flatMap typeLines) ++
    (if l.functions.isEmpty then []
      else ["Functions", rule 60] ++ l.functions.flatMap (operationLines "") ++ [""])

end Listing

/-! ## Lists of rules -/

/-- A rule as a line under its set. -/
def Rule.line (r : Rule) : String :=
  "  " ++ Text.alignLeft 24 r.name ++ " P" ++ r.priority.text ++ "  " ++ r.message

/-- A set as its name and its rules; one without rules is left out. -/
def RuleSet.lines (s : RuleSet) : List String :=
  if s.rules.isEmpty then [] else s.name :: s.rules.map (·.line)

/-- Rule sets as text, with the number of rules at the end. -/
def RuleSets.text (s : RuleSets) : String :=
  Text.lines (s.sets.flatMap (·.lines) ++ ["", toString s.ruleCount ++ " rules"])

end CodeGauge

import CodeGauge.Report.Text
import CodeGauge.Settings.Basic

/-!
# Settings as text

`overview` lists the files that were read and every key with its value and layer; `explain` lists
the properties of one rule, with the layers each of them hides.
-/

namespace CodeGauge

namespace Settings

/-- Items between commas, or a text that stands for none. -/
def itemsOr (items : List String) (none : String) : String :=
  if items.isEmpty then none else ", ".intercalate items

/-- The value of a setting as text. -/
def settingText (s : Settings) : Setting → String
  | .language => (s.language.map (·.name)).getD "(auto-detect)"
  | .format => s.format
  | .quiet => if s.quiet then "true" else "false"
  | .ruleSets => s.ruleSets
  | .minPriority => s.minPriority.text
  | .aggregation => s.aggregation.name
  | .includes => itemsOr s.includes "(all files)"
  | .excludes => itemsOr s.excludes "(none)"

/-- The rule and the property that a key stands for. The rule's name ends before the first dot. -/
def splitKey? (key : String) : Option (String × String) :=
  let start := "rules.".toList
  if start.isPrefixOf key.toList then
    let cs := key.toList.drop start.length
    match cs.dropWhile (· != '.') with
    | [] => none
    | _ :: property => some (String.ofList (cs.takeWhile (· != '.')), String.ofList property)
  else none

/-- The property value that a key stands for. -/
def property? (s : Settings) (key : String) : Option PropertyValue := do
  let (rule, property) ← splitKey? key
  let table ← s.properties.get? rule
  table.get? property

/-- The value under a key as text. -/
def valueText (s : Settings) (key : String) : String :=
  match Setting.ofKey? key with
  | some setting => s.settingText setting
  | none => ((s.property? key).map (·.words)).getD "(unknown)"

/-- A key with its value and its layer. -/
def entryText (s : Settings) (entry : String × Source) : String :=
  "  " ++ entry.1 ++ ": " ++ s.valueText entry.1 ++ " <- " ++ entry.2.words

/-- The files that were read, numbered. -/
def filesText (s : Settings) : List String :=
  if s.loadedFiles.isEmpty then ["Loaded config files: (none)"]
  else "Loaded config files:" :: s.loadedFiles.zipIdx.map fun (path, i) =>
    "  " ++ toString (i + 1) ++ ". " ++ path

/-- Every key with its value and its layer. -/
def overview (s : Settings) : String :=
  Text.lines <|
    s.filesText ++ ["", "Resolved settings:"] ++ s.provenance.entries.map s.entryText ++
    (if s.ignored.isEmpty then [] else ["", "Ignored paths: " ++ ", ".intercalate s.ignored])

/-- The layers hidden below the one in effect. -/
def shadowedText (s : Settings) (key : String) : String :=
  let hidden := s.provenance.shadowed key
  if hidden.isEmpty then ""
  else " (overrides " ++ ", ".intercalate (hidden.map (·.words)) ++ ")"

/-- The properties of a rule with their values and layers. -/
def explain (s : Settings) (rule : String) : String :=
  let entries := s.provenance.ruleEntries rule
  Text.lines <|
    ["Rule: " ++ rule, ""] ++
    if entries.isEmpty then ["  (no configured properties; built-in defaults apply)"]
    else entries.map fun e => s.entryText e ++ s.shadowedText e.1

end Settings

end CodeGauge

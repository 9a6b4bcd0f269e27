import CodeGauge.Settings.Layer

/-!
# Command lines

A command line names a command, followed by options and positional arguments in any order. `--` ends
the options. A value may be attached to its option with an equals sign; one that is not attached
does not start with a dash. Whatever is unknown, missing, repeated or malformed makes the whole line
no command.
-/

namespace CodeGauge

/-- How an option is given. -/
inductive OptionShape where
  /-- At most once and without a value. -/
  | flag
  /-- At most once, with a value. -/
  | single
  /-- Any number of times, each with a value. -/
  | repeated
  deriving DecidableEq

/-- The options that a command knows. -/
abbrev OptionTable := List (String × OptionShape)

/-- The arguments of a command. A flag is given with an empty value. -/
structure Arguments where
  positionals : List String
  options : List (String × String)

namespace Arguments

/-- Whether an argument is an option and not a value. -/
def isOption (argument : String) : Bool :=
  match argument.toList with
  | '-' :: _ :: _ => true
  | _ => false

/-- The name of an option and the value attached to it. -/
def splitValue (argument : String) : String × Option String :=
  let cs := argument.toList
  match cs.dropWhile (· != '=') with
  | [] => (argument, none)
  | _ :: value => (String.ofList (cs.takeWhile (· != '=')), some (String.ofList value))

def addOption (name value : String) (a : Arguments) : Arguments :=
  { a with options := (name, value) :: a.options }

/-- Sorts arguments into options and positional arguments. -/
def sort? (table : OptionTable) : List String → Option Arguments
  | [] => some ⟨[], []⟩
  | argument :: rest =>
    if argument = "--" then some ⟨rest, []⟩
    else if isOption argument then
      let (name, attached) := splitValue argument
      match table.lookup name, attached with
      | none, _ => none
      | some .flag, none => (sort? table rest).map (addOption name "")
      | some .flag, some _ => none
      | some _, some value => (sort? table rest).map (addOption name value)
      | some _, none =>
        match rest with
        | [] => none
        | value :: rest =>
          if isOption value then none else (sort? table rest).map (addOption name value)
    else (sort? table rest).map fun a => { a with positionals := argument :: a.positionals }

/-- The values given to an option, in order. -/
def values (a : Arguments) (name : String) : List String :=
  (a.options.filter (·.1 = name)).map (·.2)

/-- Whether no option is given more often than it may be. -/
def countsFit (table : OptionTable) (a : Arguments) : Bool :=
  table.all fun (name, shape) => shape = .repeated || (a.values name).length ≤ 1

/-- The arguments of a command with so many positional ones. -/
def read? (table : OptionTable) (positionals : Nat) (line : List String) : Option Arguments := do
  let a ← sort? table line
  if a.countsFit table && a.positionals.length = positionals then some a else none

def has (a : Arguments) (name : String) : Bool := !(a.values name).isEmpty

/-- The value of an option if it is given, which then has to be well formed. -/
def value? {α : Type} (a : Arguments) (name : String) (read : String → Option α) :
    Option (Option α) :=
  match a.values name with
  | [] => some none
  | value :: _ => (read value).map some

/-- A path, which is not empty. -/
def path? (text : String) : Option String := if text = "" then none else some text

/-- One of the modes that a command takes by name. -/
def rollup? (text : String) : Option Rollup :=
  match Rollup.ofName text with
  | .unsupported => none
  | mode => some mode

/-- The settings that options give. -/
def overrides? (a : Arguments) : Option Overrides := do
  return {
    language := ← a.value? "--lang" fun text => (Language.parse text).toOption
    format := ← a.value? "--format" OutputFormat.ofName?
    quiet := a.has "--quiet"
    ruleSets := ← a.value? "--rulesets" some
    minPriority := ← a.value? "--min-priority" Priority.ofText?
    aggregation := ← a.value? "--aggregation" rollup?
    includes := a.values "--include"
    excludes := a.values "--exclude" }

end Arguments

/-- A command with its arguments. -/
inductive Command where
  | check (path : String) (overrides : Overrides) (failOnViolation : Bool)
  | metrics (path : String) (overrides : Overrides)
  | rules (path : Option String) (overrides : Overrides)
  | showSettings (path : Option String)
  | explainRule (rule : String) (path : Option String)

namespace Command

/-- The path that a command is about. -/
def path : Command → String
  | check path _ _ | metrics path _ => path
  | rules path _ | showSettings path | explainRule _ path => path.getD "."

/-- The same command about another path. -/
def withPath (path : String) : Command → Command
  | check _ overrides failOnViolation => check path overrides failOnViolation
  | metrics _ overrides => metrics path overrides
  | rules _ overrides => rules (some path) overrides
  | showSettings _ => showSettings (some path)
  | explainRule rule _ => explainRule rule (some path)

/-- Options that choose the sources and the output of an analysis. -/
def analysisOptions : OptionTable :=
  [("--lang", .single), ("--format", .single), ("--include", .repeated), ("--exclude", .repeated),
    ("--quiet", .flag)]

/-- Options that choose rules. -/
def ruleOptions : OptionTable := [("--rulesets", .single), ("--min-priority", .single)]

def checkOptions : OptionTable := ("--fail-on-violation", .flag) :: ruleOptions ++ analysisOptions

def metricsOptions : OptionTable := ("--aggregation", .single) :: analysisOptions

def pathOption : OptionTable := [("--path", .single)]

/-- The command of a command line, if it is one. -/
def parse? : List String → Option Command
  | "check" :: line => do
    let a ← Arguments.read? checkOptions 1 line
    let path ← a.positionals.head?.bind Arguments.path?
    return .check path (← a.overrides?) (a.has "--fail-on-violation")
  | "metrics" :: line => do
    let a ← Arguments.read? metricsOptions 1 line
    let path ← a.positionals.head?.bind Arguments.path?
    return .metrics path (← a.overrides?)
  | "rules" :: line => do
    let a ← Arguments.read? (pathOption ++ ruleOptions) 0 line
    return .rules (← a.value? "--path" Arguments.path?) (← a.overrides?)
  | "config" :: "show" :: line => do
    let a ← Arguments.read? pathOption 0 line
    return .showSettings (← a.value? "--path" Arguments.path?)
  | "config" :: "explain" :: line => do
    let a ← Arguments.read? pathOption 1 line
    return .explainRule (← a.positionals.head?) (← a.value? "--path" Arguments.path?)
  | _ => none

end Command

end CodeGauge

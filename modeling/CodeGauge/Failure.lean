/-!
# What can go wrong

Every cause that stops a run, and its wording. Causes in the configuration are told apart from
missing files and malformed patterns.
-/

namespace CodeGauge

/-- Why a glob pattern is malformed or cannot be searched for. -/
inductive GlobFault where
  | unclosedClass
  | invalidRange (first last : String)
  | unopenedAlternates
  | unclosedAlternates
  | danglingEscape
  /-- An expression nests too deep. It is told by its number. -/
  | tooDeep (number : Nat)
  deriving DecidableEq

def GlobFault.message : GlobFault → String
  | unclosedClass => "unclosed character class; missing ']'"
  | invalidRange first last => "invalid range; '" ++ first ++ "' > '" ++ last ++ "'"
  | unopenedAlternates =>
    "unopened alternate group; missing '\x7b' (maybe escape '\x7d' with '[\x7d]'?)"
  | unclosedAlternates =>
    "unclosed alternate group; missing '\x7d' (maybe escape '\x7b' with '[\x7b]'?)"
  | danglingEscape => "dangling '\\'"
  | tooDeep number => "error parsing pattern " ++ toString number

/-- What a property's value has to be. -/
inductive Expected where
  | number
  | flag
  | text
  | level
  | optionNames
  deriving DecidableEq

def Expected.words : Expected → String
  | number => "a number"
  | flag => "a boolean"
  | text => "a string"
  | level => "a level from 1 to 5"
  | optionNames => "a list of option names"

/-- A fault in the configuration. -/
inductive ConfigFault where
  | unknownProperty (rule property : String)
  | wrongShape (rule property : String) (expected : Expected)
  | unknownRule (rule : String)
  | unsupportedLanguage (text : String)
  | unsupportedFormat (text : String)
  | metricsFormat
  | priorityRange (origin text : String)
  | propertyShape (origin rule property : String)
  | unreadableFile (layer path : String)
  | malformedFile (layer path : String)
  | invalidPath (path : String)
  deriving DecidableEq

def ConfigFault.message : ConfigFault → String
  | unknownProperty rule property => "rule " ++ rule ++ " has no property '" ++ property ++ "'"
  | wrongShape rule property expected =>
    "rule " ++ rule ++ ": property '" ++ property ++ "' expects " ++ expected.words
  | unknownRule rule => "Unknown rule '" ++ rule ++ "'"
  | unsupportedLanguage text => "unsupported language: " ++ text
  | unsupportedFormat text => "unsupported output format: " ++ text
  | metricsFormat => "metrics output supports text and json only"
  | priorityRange origin text =>
    origin ++ ": minimum priority must be 1..5, got '" ++ text ++ "'"
  | propertyShape origin rule property =>
    origin ++ ": rules." ++ rule ++ "." ++ property ++
      " must be a number, boolean, string or list of strings"
  | unreadableFile layer path =>
    "Could not read " ++ layer ++ " config " ++ path ++ ": stream did not contain valid UTF-8"
  | malformedFile layer path => "Invalid " ++ layer ++ " config " ++ path
  | invalidPath path => "Invalid path: " ++ path

/-- A cause that stops a run. -/
inductive Failure where
  | ruleSetNotFound (identifier : String)
  | noRules (identifiers : String)
  | config (fault : ConfigFault)
  | noFiles (path : String)
  | badGlob (glob : String) (fault : GlobFault)
  /-- A fault of several patterns together. -/
  | badGlobs (fault : GlobFault)
  deriving DecidableEq

namespace Failure

def message : Failure → String
  | ruleSetNotFound identifier => "Ruleset not found: " ++ identifier
  | noRules identifiers =>
    "No rules found. Maybe you misspelled a rule name? (" ++ identifiers ++ ")"
  | config fault => "Configuration error: " ++ fault.message
  | noFiles path => "No parseable files found in " ++ path
  | badGlob glob fault => "error parsing glob '" ++ glob ++ "': " ++ fault.message
  | badGlobs fault => fault.message

/-- Whether the cause lies in the configuration. -/
def isConfiguration : Failure → Bool
  | ruleSetNotFound _ | noRules _ | config _ => true
  | noFiles _ | badGlob _ _ | badGlobs _ => false

end Failure

end CodeGauge

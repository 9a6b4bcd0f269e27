import CodeGauge.Files.Tree
import CodeGauge.Settings.Resolve

/-!
# Looking settings up

The configuration file of a project and the ignore file are the nearest ones from a directory
upwards. An ignore file that is no text is passed over.
-/

namespace CodeGauge

/-- What a run finds around it. -/
structure Surroundings where
  tree : FileTree
  workingDirectory : List String := []
  userFile : Option ConfigFile := none
  environment : Environment := {}

namespace Surroundings

def projectFileName : String := ".tally.toml"

/-- The path of the user's file, which is below the directory for configuration if that is given by
an absolute path, else below the home directory. -/
def userFilePath? (configDirectory home : Option String) : Option String :=
  let given := configDirectory.filter (·.startsWith "/")
  let directory := given <|> (home.filter (· ≠ "")).map (Path.join · ".config")
  directory.map fun d => Path.join (Path.join d "tally") "config.toml"

/-- The paths of a file of some name in a directory and those above it. -/
def candidates (directory name : String) : List String :=
  (Path.ancestors directory).map (Path.join · name)

def read? (s : Surroundings) (path : String) : Option ByteArray :=
  s.tree.read? s.workingDirectory path

/-- The nearest configuration file of a project. -/
def projectFile? (s : Surroundings) (directory : String) : Option ConfigFile :=
  (candidates directory projectFileName).findSome? fun path =>
    (s.read? path).map fun content => ⟨path, content⟩

/-- The nearest ignore file. -/
def ignoreFile? (s : Surroundings) (directory : String) : Option IgnoreFile :=
  (candidates directory IgnoreFile.fileName).findSome? fun path =>
    ((s.read? path).bind String.fromUTF8?).map fun text => ⟨path, IgnoreFile.patternsIn text⟩

/-- What settings are resolved from in a directory. -/
def settingsInput (s : Surroundings) (directory : String) (overrides : Overrides) :
    SettingsInput where
  user := s.userFile
  project := s.projectFile? directory
  environment := s.environment
  overrides := overrides
  ignore := s.ignoreFile? directory

/-- The settings of a run in a directory. -/
def settings (s : Surroundings) (directory : String) (overrides : Overrides) :
    Except Failure Settings :=
  (s.settingsInput directory overrides).resolve.mapError Failure.config

end Surroundings

end CodeGauge

import CodeGauge.Settings.Layer
import CodeGauge.Text.Basic

/-!
# Resolving settings

Layers are applied from the bottom up: built-in values, the user's file, the project's file, the
environment, the options. A layer that is invalid on its own fails the resolution even if a higher
layer overrides what is wrong with it; of several, the lowest one is reported.

An ignore file adds exclude patterns of its own, one a line. Blank lines and comments are passed
over, and a slash at the end of a pattern stands for everything below the directory.
-/

namespace CodeGauge

/-- An ignore file as found. -/
structure IgnoreFile where
  path : String
  patterns : List String
  deriving DecidableEq

namespace IgnoreFile

def fileName : String := ".tallyignore"

/-- The pattern of a line without the white space around it. -/
def pattern (line : String) : String :=
  if line.toList.getLast? = some '/' then line ++ "**" else line

/-- The patterns in a text. -/
def patternsIn (text : String) : List String :=
  (((text.splitOn "\n").map Text.trim).filter fun line =>
    line ≠ "" && line.toList.head? ≠ some '#').map pattern

end IgnoreFile

/-- What settings are resolved from. -/
structure SettingsInput where
  user : Option ConfigFile := none
  project : Option ConfigFile := none
  environment : Environment := {}
  overrides : Overrides := {}
  ignore : Option IgnoreFile := none

namespace SettingsInput

/-- The layers above the built-in values, from the bottom up. -/
def layers (i : SettingsInput) : Except ConfigFault (List Layer) := do
  let user ← i.user.mapM (·.layer .user)
  let project ← i.project.mapM (·.layer .project)
  let environment ← i.environment.layer
  return user.toList ++ project.toList ++ [environment, i.overrides.layer]

/-- The paths of the files that were found, in the order of reading. -/
def paths (i : SettingsInput) : List String :=
  i.user.toList.map (·.path) ++ i.project.toList.map (·.path) ++ i.ignore.toList.map (·.path)

/-- The settings of a run. -/
def resolve (i : SettingsInput) : Except ConfigFault Settings := do
  let s := (← i.layers).foldl (fun s l => l.apply s) Settings.builtIn
  return { s with ignored := (i.ignore.map (·.patterns)).getD [], loadedFiles := i.paths }

end SettingsInput

end CodeGauge

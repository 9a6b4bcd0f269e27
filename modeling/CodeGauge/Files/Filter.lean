import CodeGauge.Glob.Set
import CodeGauge.Language
import CodeGauge.Path

/-!
# File filters

Which files an analysis takes: those with an extension of its language that match no exclude pattern
and, if there are include patterns, one of them. Exclude patterns are also matched against the bare
name of a file.
-/

namespace CodeGauge

/-- A filter for the paths of one analysis. -/
structure FileFilter where
  extensions : List String
  includes : List Glob
  excludes : List Glob

namespace FileFilter

/-- A pattern as part of a filter. -/
def pattern (text : String) : Except Failure Glob :=
  (Glob.parse .closed text).mapError (Failure.badGlob text)

/-- Patterns as one side of a filter. -/
def patterns (texts : List String) : Except Failure (List Glob) := do
  let globs ← texts.mapM pattern
  match Glob.setFault? globs with
  | some fault => throw fault
  | none => return globs

/-- The filter of a language. The language's own excludes are added unless tests are asked for. -/
def make (language : Language) (includes excludes : List String) (includeTests : Bool) :
    Except Failure FileFilter := do
  let own := if includeTests then [] else language.defaultExcludes
  let includes ← patterns includes
  let excludes ← patterns (excludes ++ own)
  return ⟨language.extensions, includes, excludes⟩

/-- Whether any of some patterns matches a path. -/
def anyMatch (globs : List Glob) (path : String) : Bool := globs.any (·.isMatch false path)

/-- Whether a filter takes the file of a path. -/
def accepts (f : FileFilter) (path : String) : Bool :=
  (Path.extension? path).any (f.extensions.contains ·) &&
    !anyMatch f.excludes path &&
    !(Path.fileName? path).any (anyMatch f.excludes ·) &&
    (f.includes.isEmpty || anyMatch f.includes path)

end FileFilter

end CodeGauge

import CodeGauge.Files.Filter
import CodeGauge.Files.Walk
import CodeGauge.Grammar.Lowering

/-!
# Sources

The files of an analysis: the language most files below the root are written in, unless it is given,
and the files that the filter of that language takes, in the order of their paths.
-/

namespace CodeGauge

/-- A file of an analysis, under its path from the root. -/
structure FoundFile where
  path : String
  file : StoredFile

namespace FileTree

/-- The path of names from the root of an analysis. -/
def relative (names : List String) : String := "/".intercalate names

/-- The language of a file by its extension. -/
def languageOf? (path : String) : Option Language :=
  (Path.extension? path).bind fun e => Language.all.find? (·.extensions.contains e)

/-- The languages of the files below a root. -/
def languagesBelow (t : FileTree) (workingDirectory root : List String) : List Language :=
  (t.filesBelow workingDirectory root).filterMap fun (names, _) =>
    languageOf? (pathOf (root ++ names))

/-- The most frequent of some languages, the first in `Language.all` if several are. -/
def mostFrequent? (found : List Language) : Option Language :=
  let counts := Language.all.map found.count
  let top := counts.foldl max 0
  if top = 0 then none else Language.all.find? (found.count · = top)

/-- The language most files below a root are written in. -/
def language? (t : FileTree) (workingDirectory root : List String) : Option Language :=
  mostFrequent? (t.languagesBelow workingDirectory root)

/-- The files below a root that a filter takes. -/
def accepted (t : FileTree) (workingDirectory root : List String) (filter : FileFilter) :
    List FoundFile :=
  let found := (t.filesBelow workingDirectory root).map fun (names, found) =>
    ⟨relative names, found⟩
  let taken := found.filter fun f => filter.accepts f.path
  taken.mergeSort fun a b => (Path.compare a.path b.path).isLE

/-- The files below a root that an analysis takes. -/
def discover (t : FileTree) (workingDirectory root : List String) (language : Language)
    (includes excludes : List String) (includeTests : Bool) : Except Failure (List FoundFile) := do
  let filter ← FileFilter.make language includes excludes includeTests
  return t.accepted workingDirectory root filter

end FileTree

/-- What an analysis works on. There is at least one file. -/
structure Sources where
  root : String
  language : Language
  files : List FoundFile

namespace Sources

/-- The sources below a place. -/
def find (t : FileTree) (workingDirectory root : List String) (given : Option Language)
    (includes excludes : List String) : Except Failure Sources := do
  let path := FileTree.pathOf root
  match given <|> t.language? workingDirectory root with
  | none => .error (.noFiles path)
  | some language =>
    let files ← t.discover workingDirectory root language includes excludes false
    if files.isEmpty then .error (.noFiles path) else return ⟨path, language, files⟩

/-- The files that have a syntax tree, lowered. -/
def parsed (s : Sources) : List (String × Node) :=
  s.files.filterMap fun f =>
    f.file.concrete.map fun c => (f.path, lower s.language f.file.bytes f.path c)

end Sources

end CodeGauge

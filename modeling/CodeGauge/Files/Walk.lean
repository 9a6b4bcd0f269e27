import CodeGauge.Files.IgnoreRule
import CodeGauge.Files.WorkingCopy

/-!
# Walking a file tree

The walk visits every file that is not ignored; nothing below an ignored directory is visited.
Each directory may bring rules of its own. Rules of inner directories go before those of outer ones,
and general rules before those of version control, which hold inside a working copy only and up to
its top.
-/

namespace CodeGauge

/-- The rules that a directory brings for what is below it. -/
structure WalkLevel where
  /-- The names that lead from the directory to the one being visited. -/
  names : List String
  general : List IgnoreRule
  versioned : List IgnoreRule
  excluded : List IgnoreRule
  /-- Whether the directory is the top of a working copy. -/
  isTop : Bool

namespace WalkLevel

/-- The rules in a file, none if there is no file. -/
def rulesIn (bytes : Option ByteArray) : List IgnoreRule := (bytes.map IgnoreRule.rulesIn).getD []

/-- The rules of a directory that is about to be visited from `names` below it, `read` giving the
files of paths. -/
def ofDirectory (read : String → Option ByteArray) (names : List String) (t : FileTree) :
    WalkLevel where
  names := names
  general := rulesIn (t.fileAt? [".ignore"])
  versioned := rulesIn (t.fileAt? [".gitignore"])
  excluded := rulesIn (WorkingCopy.rules? read t)
  isTop := WorkingCopy.isTop t

/-- The rules as seen from an entry of the directory being visited. -/
def enter (name : String) (l : WalkLevel) : WalkLevel := { l with names := l.names ++ [name] }

/-- What some rules of a level say about an entry of the directory being visited. -/
def verdict? (l : WalkLevel) (rules : List IgnoreRule) (isDirectory : Bool) (name : String) :
    Option Bool :=
  IgnoreRule.verdict? rules isDirectory ("/".intercalate (l.names ++ [name]))

/-- The levels up to the top of the innermost working copy. -/
def workingCopy : List WalkLevel → List WalkLevel
  | [] => []
  | l :: ls => if l.isTop then [l] else l :: workingCopy ls

/-- Whether an entry of the directory being visited is ignored. The levels go from the inside
out. -/
def ignores (levels : List WalkLevel) (isDirectory : Bool) (name : String) : Bool :=
  let inCopy := if levels.any (·.isTop) then workingCopy levels else []
  let verdict := levels.findSome? (fun l => l.verdict? l.general isDirectory name) <|>
    inCopy.findSome? (fun l => l.verdict? l.versioned isDirectory name) <|>
    inCopy.findSome? (fun l => l.verdict? l.excluded isDirectory name)
  verdict.getD false

end WalkLevel

namespace FileTree

mutual

/-- The files below a tree at a place that are not ignored, each with its place. `outer` are the
levels above it, seen from it. -/
def visit (read : String → Option ByteArray) (outer : List WalkLevel) (place : List String) :
    FileTree → List (List String × StoredFile)
  | file f => [(place, f)]
  | directory entries =>
    visitEntries read (.ofDirectory read [] (.directory entries) :: outer) place entries

/-- The files among entries of the directory being visited. -/
def visitEntries (read : String → Option ByteArray) (levels : List WalkLevel)
    (place : List String) : List (String × FileTree) → List (List String × StoredFile)
  | [] => []
  | (name, t) :: rest =>
    let found :=
      if WalkLevel.ignores levels t.isDirectory name then []
      else visit read (levels.map (·.enter name)) (place ++ [name]) t
    found ++ visitEntries read levels place rest

end

/-- The levels of the directories above a place, from the inside out. -/
def levelsAbove (read : String → Option ByteArray) (t : FileTree) :
    List String → List WalkLevel
  | [] => []
  | name :: place =>
    let inner := ((t.entries.lookup name).map (levelsAbove read · place)).getD []
    inner ++ [.ofDirectory read (name :: place) t]

/-- The files below a place that are not ignored, each with the names that lead to it. Paths start
from the working directory. -/
def filesBelow (t : FileTree) (workingDirectory root : List String) :
    List (List String × StoredFile) :=
  let read := t.read? workingDirectory
  match t.at? root with
  | some inner => visit read (t.levelsAbove read root) [] inner
  | none => []

end FileTree

end CodeGauge

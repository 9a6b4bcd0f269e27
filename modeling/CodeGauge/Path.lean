/-!
# Paths

A path is a text; what it denotes is its list of components. Repeated and trailing slashes and inner
dots do not count, so several spellings have the same components. Paths are ordered by their
components, which makes one order and one equality of all spellings.
-/

namespace CodeGauge

namespace Path

/-- A component of a path: the root, a leading dot, the parent, or a name. -/
inductive Component where
  | root
  | here
  | up
  | name (text : String)
  deriving DecidableEq

namespace Component

/-- Root before dot before parent before names. -/
def rank : Component → Nat
  | root => 0
  | here => 1
  | up => 2
  | name _ => 3

def text : Component → String
  | name text => text
  | _ => ""

/-- Components by rank, names by their text. -/
def compare : Component → Component → Ordering :=
  compareLex (compareOn rank) (compareOn text)

end Component

/-- A text between two slashes as a component, if it is one past the start of a path. -/
def innerComponent? (piece : String) : Option Component :=
  if piece = "" ∨ piece = "." then none
  else if piece = ".." then some .up
  else some (.name piece)

/-- The components of a path. -/
def components (path : String) : List Component :=
  let pieces := path.splitOn "/"
  let start : List Component :=
    if path.startsWith "/" then [.root]
    else if pieces.head? = some "." then [.here]
    else []
  start ++ pieces.filterMap innerComponent?

/-- The order of paths. -/
def compare (a b : String) : Ordering :=
  List.compareLex Component.compare (components a) (components b)

/-- Whether two texts are spellings of the same path. -/
def same (a b : String) : Bool := components a == components b

/-- The last component, if it is a name. -/
def fileName? (path : String) : Option String :=
  match (components path).getLast? with
  | some (.name text) => some text
  | _ => none

/-- The name of the directory a path is in, if it has one. -/
def directoryName? (path : String) : Option String :=
  match (components path).dropLast.getLast? with
  | some (.name text) => some text
  | _ => none

/-- A file name before and after its last dot. A dot at the start is part of the name. -/
def splitExtension (name : String) : String × Option String :=
  let cs := name.toList
  let extension := (cs.reverse.takeWhile (· != '.')).reverse
  let rest := cs.take (cs.length - extension.length - 1)
  if rest.isEmpty then (name, none) else (String.ofList rest, some (String.ofList extension))

/-- The file name without its extension. -/
def stem? (path : String) : Option String := (fileName? path).map fun n => (splitExtension n).1

/-- What follows the last dot of the file name. -/
def extension? (path : String) : Option String :=
  (fileName? path).bind fun n => (splitExtension n).2

/-- A name inside a directory. -/
def join (directory name : String) : String :=
  if directory = "" ∨ directory.toList.getLast? = some '/' then directory ++ name
  else directory ++ "/" ++ name

/-- Whether a text between two slashes is no component. -/
def isFiller (piece : String) : Bool := piece = "" || piece = "."

/-- A path of a first piece and the pieces behind it, the last first. -/
def ofPieces (first : String) (rest : List String) : String :=
  if rest.isEmpty then if first = "" then "/" else first
  else "/".intercalate (first :: rest.reverse)

/-- The directories above a path of a first piece and the pieces behind it, the last first. -/
def above (first : String) : List String → List String
  | [] => if first = "" then [] else [""]
  | piece :: rest =>
    if isFiller piece then above first rest
    else ofPieces first (rest.dropWhile isFiller) :: above first rest

/-- A path and the directories above it, from the inside out. -/
def ancestors (path : String) : List String :=
  match path.splitOn "/" with
  | first :: rest => path :: above first rest.reverse
  | [] => [path]

/-- The module a file is named after: its stem, or for the entry file of a package the name of its
directory. -/
def moduleName (path : String) : String :=
  let stem := (stem? path).getD ""
  if stem = "mod" ∨ stem = "__init__" then (directoryName? path).getD stem else stem

end Path

end CodeGauge

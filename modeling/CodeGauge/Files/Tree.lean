import CodeGauge.Grammar.Concrete

/-!
# File trees

A directory holds entries by name. A place in a tree is the list of names that lead to it; a path is
resolved to a place from a working directory, as far as the directories on its way exist.
-/

namespace CodeGauge

/-- A regular file, with its syntax tree where a parser gave one. -/
structure StoredFile where
  bytes : ByteArray
  concrete : Option Concrete := none

/-- A file, or a directory with its entries. -/
inductive FileTree where
  | file (file : StoredFile)
  | directory (entries : List (String × FileTree))

namespace FileTree

def empty : FileTree := .directory []

/-- The entries of a directory; a file has none. -/
def entries : FileTree → List (String × FileTree)
  | file _ => []
  | directory entries => entries

def isDirectory : FileTree → Bool
  | file _ => false
  | directory _ => true

/-- The bytes of a file. -/
def bytes? : FileTree → Option ByteArray
  | file f => some f.bytes
  | directory _ => none

/-- What stands at a place. -/
def at? (t : FileTree) : List String → Option FileTree
  | [] => some t
  | name :: place => (t.entries.lookup name).bind fun inner => at? inner place

/-- The bytes of the file at a place. -/
def fileAt? (t : FileTree) (place : List String) : Option ByteArray := (t.at? place).bind bytes?

/-- Sets an entry of a directory. -/
def setEntry (name : String) (inner : FileTree) :
    List (String × FileTree) → List (String × FileTree)
  | [] => [(name, inner)]
  | (n, t) :: rest =>
    if n = name then (name, inner) :: rest else (n, t) :: setEntry name inner rest

/-- Puts a tree at a place, making the directories on the way. -/
def insert (t : FileTree) (new : FileTree) : List String → FileTree
  | [] => new
  | name :: place =>
    let inner := (t.entries.lookup name).getD empty
    .directory (setEntry name (inner.insert new place) t.entries)

/-! ## Places -/

/-- The path of a place. -/
def pathOf (place : List String) : String := "/" ++ "/".intercalate place

/-- The place of an absolute path without dots. -/
def placeOf (path : String) : List String := (path.splitOn "/").filter (· ≠ "")

/-- Follows one piece of a path from a place. -/
def step? (t : FileTree) (place : List String) (piece : String) : Option (List String) :=
  if ((t.at? place).any isDirectory) then
    if piece = "" ∨ piece = "." then some place
    else if piece = ".." then some place.dropLast
    else
      let place := place ++ [piece]
      if (t.at? place).isSome then some place else none
  else none

/-- The place of a path, if there is something there. -/
def place? (t : FileTree) (workingDirectory : List String) (path : String) :
    Option (List String) :=
  if path = "" then none
  else
    let start := if path.toList.head? = some '/' then [] else workingDirectory
    (path.splitOn "/").foldlM t.step? start

/-- The bytes of the file that a path leads to. -/
def read? (t : FileTree) (workingDirectory : List String) (path : String) : Option ByteArray :=
  (t.place? workingDirectory path).bind t.fileAt?

end FileTree

end CodeGauge
